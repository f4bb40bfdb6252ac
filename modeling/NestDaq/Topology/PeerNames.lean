import NestDaq.Registry.Identity
import NestDaq.Topology.ConnectConfig

/-!
# Spellings of a peer

A peer of `connect-config` may be spelled in six ways, with or without its service, the
index of its instance and that of its sub-channel. The parser knows each by its
separators. Its classes of characters have no hyphen, so that it reads the names of
services and channels without hyphens, and no others.
-/

namespace NestDaq.Topology

open NestDaq.Registry

/-- `\w+` -/
def IsWord (text : Text) : Prop :=
  text ≠ [] ∧ ∀ char ∈ text, isWord char

theorem IsWord.notMem {text : Text} (word : IsWord text) {char : Char}
    (separator : isWord char = false) : char ∉ text := by
  intro member
  rw [word.2 char member] at separator
  cases separator

theorem isWord_of_isDigit {char : Char} (digit : char.isDigit) : isWord char := by
  simp [isWord, Char.isAlphanum, digit]

/-- The index of an instance or a sub-channel in a text. -/
def IsIndex (text : Text) : Prop :=
  text ≠ [] ∧ ∀ char ∈ text, char.isDigit

theorem isIndex_decimal (n : Nat) : IsIndex (Text.decimal n) :=
  ⟨Text.decimal_ne_nil n, fun _ member => Text.isDigit_of_mem_decimal member⟩

theorem IsIndex.isWord {text : Text} (index : IsIndex text) : IsWord text :=
  ⟨index.1, fun char member => isWord_of_isDigit (index.2 char member)⟩

/-- The sub-channel that a peer string asks for, the first one when it has no index. -/
def PeerName.subChannel (name : PeerName) : Nat :=
  (name.subChannelIndex.bind Text.leadingNat).getD 0

/-- The parts of a peer name are words. -/
structure PeerName.Words (peer : PeerName) : Prop where
  service : IsWord peer.service
  id : ∃ name index, IsWord name ∧ IsIndex index ∧ peer.id = instanceId name index
  channel : IsWord peer.channel

theorem parsePeer_words {p : Text} {peer : PeerName} (parsed : parsePeer p = some peer) :
    peer.Words := by
  have named {pattern : List Text.Piece} {found : List Text}
      (groups : Text.groups pattern p = some found) :=
    (Text.matches_of_groups groups).accepted
  have zero : IsIndex ['0'] := ⟨by decide, by decide⟩
  unfold parsePeer at parsed
  simp only at parsed
  split_ifs at parsed with two bracket one bracket
  · split at parsed
    · rename_i groups
      cases parsed
      rcases named groups with _ | ⟨service, _ | ⟨name, _ | ⟨index, _ | ⟨channel, _⟩⟩⟩⟩
      exact ⟨service, ⟨_, _, name, index, rfl⟩, channel⟩
    · cases parsed
  · split at parsed
    · rename_i groups
      cases parsed
      rcases named groups with _ | ⟨service, _ | ⟨name, _ | ⟨index, _ | ⟨channel, _⟩⟩⟩⟩
      exact ⟨service, ⟨_, _, name, index, rfl⟩, channel⟩
    · cases parsed
  · split at parsed
    · rename_i groups
      cases parsed
      rcases named groups with _ | ⟨name, _ | ⟨index, _ | ⟨channel, _⟩⟩⟩
      exact ⟨name, ⟨_, _, name, index, rfl⟩, channel⟩
    · split at parsed
      · rename_i groups
        cases parsed
        rcases named groups with _ | ⟨service, _ | ⟨channel, _⟩⟩
        exact ⟨service, ⟨_, _, service, zero, rfl⟩, channel⟩
      · cases parsed
  · split at parsed
    · rename_i groups
      cases parsed
      rcases named groups with _ | ⟨name, _ | ⟨index, _ | ⟨channel, _⟩⟩⟩
      exact ⟨name, ⟨_, _, name, index, rfl⟩, channel⟩
    · split at parsed
      · rename_i groups
        cases parsed
        rcases named groups with _ | ⟨service, _ | ⟨channel, _⟩⟩
        exact ⟨service, ⟨_, _, service, zero, rfl⟩, channel⟩
      · cases parsed

/-- How a peer is spelled: with its service and the index of its instance, with the index
alone, or with the service alone, and with the index of the sub-channel or without. -/
inductive Spelling where
  | full (index : Nat) (subChannel : Option Nat)
  | ofInstance (index : Nat) (subChannel : Option Nat)
  | ofService (subChannel : Option Nat)

namespace Spelling

/-- `[k]` -/
def bracketed : Option Nat → Text
  | none => []
  | some k => '[' :: (Text.decimal k ++ [']'])

/-- The peer string. -/
def text (service channel : Text) : Spelling → Text
  | .full index subChannel =>
      service ++ ':' :: (service ++ '-' :: (Text.decimal index ++ ':' :: (channel ++
        bracketed subChannel)))
  | .ofInstance index subChannel =>
      service ++ '-' :: (Text.decimal index ++ ':' :: (channel ++ bracketed subChannel))
  | .ofService subChannel => service ++ ':' :: (channel ++ bracketed subChannel)

/-- The index of the instance, the first one when none is given. -/
def index : Spelling → Nat
  | .full index _ => index
  | .ofInstance index _ => index
  | .ofService _ => 0

/-- The index of the sub-channel. -/
def subChannelIndex : Spelling → Option Nat
  | .full _ subChannel => subChannel
  | .ofInstance _ subChannel => subChannel
  | .ofService subChannel => subChannel

/-- The number of separators. -/
def nSeparators : Spelling → Nat
  | .full .. => 2
  | _ => 1

/-- The parser reads the spelling as what it stands for. -/
def Reads (spelling : Spelling) (service channel : Text) : Prop :=
  ∃ name, parsePeer (spelling.text service channel) = some name ∧ name.service = service ∧
    name.id = indexedId service (Text.decimal spelling.index) ∧ name.channel = channel ∧
    name.subChannel = spelling.subChannelIndex.getD 0

end Spelling

/-! ## Fitting patterns -/

section Fits

variable {service channel : Text}

theorem count_colon_of_isWord {text : Text} (word : IsWord text) : text.count ':' = 0 :=
  List.count_eq_zero_of_not_mem (word.notMem rfl)

theorem count_colon_bracketed (subChannel : Option Nat) :
    (Spelling.bracketed subChannel).count ':' = 0 := by
  cases subChannel with
  | none => rfl
  | some k =>
      simp [Spelling.bracketed, count_colon_of_isWord (isIndex_decimal k).isWord]

theorem bracket_mem_bracketed_iff (subChannel : Option Nat) :
    '[' ∈ Spelling.bracketed subChannel ↔ subChannel ≠ none := by
  cases subChannel with
  | none => simp [Spelling.bracketed]
  | some k => simp [Spelling.bracketed]

/-- The literal characters of a pattern are in the texts that fit. -/
theorem mem_of_matches {pattern : List Text.Piece} {text : Text} {found : List Text}
    (fits : Text.Matches pattern text found) {char : Char}
    (member : Text.Piece.literal char ∈ pattern) : char ∈ text := by
  induction fits with
  | nil => cases member
  | literal later ih =>
      rcases List.mem_cons.mp member with same | inRest
      · cases same
        exact List.mem_cons_self
      · exact List.mem_cons_of_mem _ (ih inRest)
  | group nonempty accepted later ih =>
      rcases List.mem_cons.mp member with same | inRest
      · cases same
      · exact List.mem_append_right _ (ih inRest)

theorem groups_eq_none {pattern : List Text.Piece} {text : Text} {char : Char}
    (member : Text.Piece.literal char ∈ pattern) (absent : char ∉ text) :
    Text.groups pattern text = none := by
  rw [Option.eq_none_iff_forall_ne_some]
  intro found fits
  exact absent (mem_of_matches (Text.matches_of_groups fits) member)

theorem matches_word {pattern : List Text.Piece} {text rest : Text} {found : List Text}
    (word : IsWord text) (later : Text.Matches pattern rest found) :
    Text.Matches (.group isWord :: pattern) (text ++ rest) (text :: found) :=
  .group word.1 word.2 later

theorem matches_index {pattern : List Text.Piece} {rest : Text} {found : List Text} (n : Nat)
    (later : Text.Matches pattern rest found) :
    Text.Matches (.group Char.isDigit :: pattern) (Text.decimal n ++ rest)
      (Text.decimal n :: found) :=
  .group (isIndex_decimal n).1 (isIndex_decimal n).2 later

theorem matches_channel (word : IsWord channel) :
    Text.Matches [.group isWord] (channel ++ Spelling.bracketed none) [channel] :=
  matches_word word .nil

theorem matches_subChannel (word : IsWord channel) (k : Nat) :
    Text.Matches [.group isWord, .literal '[', .group Char.isDigit, .literal ']']
      (channel ++ Spelling.bracketed (some k)) [channel, Text.decimal k] :=
  matches_word word (.literal (matches_index k (.literal .nil)))

variable (serviceWord : IsWord service) (channelWord : IsWord channel)

include serviceWord channelWord in
/-- How often the separator is in a spelling, and whether a bracket is. -/
theorem separators_text (spelling : Spelling) :
    (spelling.text service channel).count ':' = spelling.nSeparators ∧
      ('[' ∈ spelling.text service channel ↔ spelling.subChannelIndex ≠ none) := by
  have noBracket {text : Text} (word : IsWord text) : '[' ∉ text := word.notMem rfl
  have index (n : Nat) := (isIndex_decimal n).isWord
  cases spelling <;> simp [Spelling.text, Spelling.nSeparators, Spelling.subChannelIndex,
    count_colon_of_isWord, serviceWord, channelWord, noBracket, index, count_colon_bracketed,
    bracket_mem_bracketed_iff]

theorem indexedId_eq (service : Text) (index : Nat) :
    instanceId service (Text.decimal index) = indexedId service (Text.decimal index) := by
  simp [instanceId, indexedId]

theorem decimal_zero : ['0'] = Text.decimal 0 := by
  decide +kernel

theorem subChannel_some (service id channel : Text) (k : Nat) :
    (PeerName.mk service id channel (some (Text.decimal k))).subChannel = k := by
  simp [PeerName.subChannel, Text.leadingNat_decimal]

include serviceWord channelWord in
/-- The spellings with the index of an instance. -/
theorem reads_full (index : Nat) (subChannel : Option Nat) :
    (Spelling.full index subChannel).Reads service channel := by
  rcases separators_text serviceWord channelWord (.full index subChannel) with ⟨count, bracket⟩
  have front {pattern : List Text.Piece} {found : List Text}
      (later : Text.Matches pattern (channel ++ Spelling.bracketed subChannel) found) :
      Text.Matches (.group isWord :: .literal ':' :: .group isWord :: .literal '-' ::
          .group Char.isDigit :: .literal ':' :: pattern)
        ((Spelling.full index subChannel).text service channel)
        (service :: service :: Text.decimal index :: found) :=
    matches_word serviceWord (.literal (matches_word serviceWord (.literal
      (matches_index index (.literal later)))))
  have two : ((Spelling.full index subChannel).text service channel).count ':' = 2 := count
  cases subChannel with
  | none =>
      have noBracket : '[' ∉ (Spelling.full index none).text service channel :=
        fun member => bracket.mp member rfl
      have groups := @Text.groups_of_matches serviceInstance _ _ ⟨rfl, rfl, rfl, trivial⟩
        (front (matches_channel channelWord))
      have parsed : parsePeer ((Spelling.full index none).text service channel) =
          some ⟨service, instanceId service (Text.decimal index), channel, none⟩ := by
        rw [parsePeer, if_pos two, if_neg noBracket, groups]
      exact ⟨_, parsed, rfl, indexedId_eq service index, rfl, rfl⟩
  | some k =>
      have hasBracket : '[' ∈ (Spelling.full index (some k)).text service channel :=
        bracket.mpr (Option.some_ne_none k)
      have groups := @Text.groups_of_matches serviceInstanceIndexed _ _
        ⟨rfl, rfl, rfl, rfl, rfl, trivial⟩ (front (matches_subChannel channelWord k))
      have parsed : parsePeer ((Spelling.full index (some k)).text service channel) =
          some ⟨service, instanceId service (Text.decimal index), channel,
            some (Text.decimal k)⟩ := by
        rw [parsePeer, if_pos two, if_pos hasBracket, groups]
      exact ⟨_, parsed, rfl, indexedId_eq service index, rfl, subChannel_some _ _ _ k⟩

include serviceWord channelWord in
/-- The spellings with the instance alone. -/
theorem reads_ofInstance (index : Nat) (subChannel : Option Nat) :
    (Spelling.ofInstance index subChannel).Reads service channel := by
  rcases separators_text serviceWord channelWord (.ofInstance index subChannel) with
    ⟨count, bracket⟩
  have front {pattern : List Text.Piece} {found : List Text}
      (later : Text.Matches pattern (channel ++ Spelling.bracketed subChannel) found) :
      Text.Matches (.group isWord :: .literal '-' :: .group Char.isDigit :: .literal ':' :: pattern)
        ((Spelling.ofInstance index subChannel).text service channel)
        (service :: Text.decimal index :: found) :=
    matches_word serviceWord (.literal (matches_index index (.literal later)))
  have one : ((Spelling.ofInstance index subChannel).text service channel).count ':' = 1 := count
  have notTwo : ((Spelling.ofInstance index subChannel).text service channel).count ':' ≠ 2 := by
    rw [one]
    decide
  cases subChannel with
  | none =>
      have noBracket : '[' ∉ (Spelling.ofInstance index none).text service channel :=
        fun member => bracket.mp member rfl
      have groups := @Text.groups_of_matches instanceOnly _ _ ⟨rfl, rfl, trivial⟩
        (front (matches_channel channelWord))
      have parsed : parsePeer ((Spelling.ofInstance index none).text service channel) =
          some ⟨service, instanceId service (Text.decimal index), channel, none⟩ := by
        rw [parsePeer, if_neg notTwo, if_pos one, if_neg noBracket, groups]
      exact ⟨_, parsed, rfl, indexedId_eq service index, rfl, rfl⟩
  | some k =>
      have hasBracket : '[' ∈ (Spelling.ofInstance index (some k)).text service channel :=
        bracket.mpr (Option.some_ne_none k)
      have groups := @Text.groups_of_matches instanceIndexed _ _ ⟨rfl, rfl, rfl, rfl, trivial⟩
        (front (matches_subChannel channelWord k))
      have parsed : parsePeer ((Spelling.ofInstance index (some k)).text service channel) =
          some ⟨service, instanceId service (Text.decimal index), channel,
            some (Text.decimal k)⟩ := by
        rw [parsePeer, if_neg notTwo, if_pos one, if_pos hasBracket, groups]
      exact ⟨_, parsed, rfl, indexedId_eq service index, rfl, subChannel_some _ _ _ k⟩

include serviceWord channelWord in
/-- A service without an index is not taken for an instance. -/
theorem hyphen_notMem_ofService (subChannel : Option Nat) :
    '-' ∉ (Spelling.ofService subChannel).text service channel := by
  have noHyphen {text : Text} (word : IsWord text) : '-' ∉ text := word.notMem rfl
  have index (n : Nat) := (isIndex_decimal n).isWord
  cases subChannel with
  | none => simp [Spelling.text, Spelling.bracketed, serviceWord, channelWord, noHyphen]
  | some k => simp [Spelling.text, Spelling.bracketed, serviceWord, channelWord, noHyphen, index]

include serviceWord channelWord in
/-- The spellings with the service alone. -/
theorem reads_ofService (subChannel : Option Nat) :
    (Spelling.ofService subChannel).Reads service channel := by
  rcases separators_text serviceWord channelWord (.ofService subChannel) with ⟨count, bracket⟩
  have noHyphen := hyphen_notMem_ofService serviceWord channelWord subChannel
  have front {pattern : List Text.Piece} {found : List Text}
      (later : Text.Matches pattern (channel ++ Spelling.bracketed subChannel) found) :
      Text.Matches (.group isWord :: .literal ':' :: pattern)
        ((Spelling.ofService subChannel).text service channel) (service :: found) :=
    matches_word serviceWord (.literal later)
  have one : ((Spelling.ofService subChannel).text service channel).count ':' = 1 := count
  have notTwo : ((Spelling.ofService subChannel).text service channel).count ':' ≠ 2 := by
    rw [one]
    decide
  have id : instanceId service ['0'] = indexedId service (Text.decimal 0) := by
    rw [decimal_zero, indexedId_eq]
  cases subChannel with
  | none =>
      have noBracket : '[' ∉ (Spelling.ofService none).text service channel :=
        fun member => bracket.mp member rfl
      have notInstance := @groups_eq_none instanceOnly _ '-' (by simp [instanceOnly]) noHyphen
      have groups := @Text.groups_of_matches serviceOnly _ _ ⟨rfl, trivial⟩
        (front (matches_channel channelWord))
      have parsed : parsePeer ((Spelling.ofService none).text service channel) =
          some ⟨service, instanceId service ['0'], channel, none⟩ := by
        rw [parsePeer, if_neg notTwo, if_pos one, if_neg noBracket, notInstance, groups]
      exact ⟨_, parsed, rfl, id, rfl, rfl⟩
  | some k =>
      have hasBracket : '[' ∈ (Spelling.ofService (some k)).text service channel :=
        bracket.mpr (Option.some_ne_none k)
      have notInstance := @groups_eq_none instanceIndexed _ '-' (by simp [instanceIndexed]) noHyphen
      have groups := @Text.groups_of_matches serviceIndexed _ _ ⟨rfl, rfl, rfl, trivial⟩
        (front (matches_subChannel channelWord k))
      have parsed : parsePeer ((Spelling.ofService (some k)).text service channel) =
          some ⟨service, instanceId service ['0'], channel, some (Text.decimal k)⟩ := by
        rw [parsePeer, if_neg notTwo, if_pos one, if_pos hasBracket, notInstance, groups]
      exact ⟨_, parsed, rfl, id, rfl, subChannel_some _ _ _ k⟩

end Fits

/-- The characters of service and channel names: letters, digits, `_` and `-`. -/
def IsName (text : Text) : Prop :=
  ∀ char ∈ text, isWord char ∨ char = '-'

/-- A name is a word without hyphens. -/
theorem IsName.isWord_iff {text : Text} (name : IsName text) :
    IsWord text ↔ text ≠ [] ∧ '-' ∉ text := by
  constructor
  · intro word
    exact ⟨word.1, word.notMem rfl⟩
  · rintro ⟨nonempty, noHyphen⟩
    constructor
    · exact nonempty
    · intro char member
      rcases name char member with word | rfl
      · exact word
      · exact absurd member noHyphen

end NestDaq.Topology
