import NestDaq.Topology.SocketFields

/-!
# Channel records

The hash that `WriteChannel` writes for a channel, read back by `ToSocketProperty`. A
server lists the fields of a hash in any order.
-/

namespace NestDaq.Topology

open NestDaq.Registry
open NestDaq.Store

/-- The fields that mark a channel as bound. -/
def boundFields : List (Text × Text) :=
  [(Field.text .bound, ['1'])]

/-- The enumeration of a hash decides nothing about its lookups. -/
theorem lookup_of_perm {first second : Hash} (perm : first.entries.Perm second.entries)
    (field : Text) : first.lookup field = second.lookup field :=
  AList.perm_lookup perm

/-- A field written by `channelFields` has the text of its property. -/
theorem lookup_channelFields (hash : Hash) (sp : SocketProperty) (field : Field) :
    (setFields hash (channelFields sp)).lookup field.text = some (fieldText sp field) := by
  apply lookup_setFields_of_mem
  · rw [channelFields_eq, List.map_map]
    exact (by decide : (Field.all.map Field.text).Nodup)
  · rw [channelFields_eq]
    exact List.mem_map.mpr ⟨field, field.mem_all, rfl⟩

/-- Only the mark differs in a channel that is marked. -/
theorem fieldText_bound (sp : SocketProperty) (field : Field) :
    fieldText { sp with bound := true } field =
      if field = .bound then ['1'] else fieldText sp field := by
  cases field <;> rfl

namespace TopologyConfig

variable {config : TopologyConfig} {sp : SocketProperty} {peers : List Text}

theorem channelKey_injective : Function.Injective config.channelKey := by
  intro first second same
  simpa [channelKey, key] using same

theorem peerListKey_ne (channel : Text) : config.peerListKey channel ≠ channel := by
  intro same
  have longer : channel ++ (config.fSeparator ++ peerPrefix) = channel ++ [] := by
    simpa [peerListKey, key] using same
  have empty := (List.append_eq_nil_iff.mp (List.append_cancel_left longer)).2
  exact absurd empty (by decide)

/-- The fields of the hash after `WriteChannel`. -/
theorem hget_writeChannel (some : peers ≠ []) (db : Db) (field : Field) :
    hget (execAll db (config.writeChannel sp peers)) (config.channelKey sp.name) field.text =
      .some (fieldText sp field) := by
  have other := Ne.symm (@peerListKey_ne config (config.channelKey sp.name))
  rw [writeChannel, if_neg some]
  have list : ∀ before : Db,
      hget (execAll before [.expire (config.channelKey sp.name),
        .rpush (config.peerListKey (config.channelKey sp.name)) peers,
        .expire (config.peerListKey (config.channelKey sp.name))])
          (config.channelKey sp.name) field.text =
        hget before (config.channelKey sp.name) field.text := by
    intro before
    exact hget_congr (lookup_rpush_of_ne before other peers) _
  exact (list _).trans ((hget_hset _ _ _).trans (lookup_channelFields _ sp field))

/-- The commands of `WriteBindAddress` under the key of a channel mark it. -/
theorem markBound_of_key {properties : Properties} {channel : Text} {command : Command}
    (member : command ∈ config.writeBindAddress properties)
    (addressed : config.channelKey channel = command.key) :
    command = .hset (config.channelKey channel) boundFields := by
  rcases List.mem_flatMap.mp member with ⟨⟨name, other⟩, _, written⟩
  rcases List.mem_append.mp written with inSubs | marks
  · rcases List.mem_flatMap.mp inSubs with ⟨index, _, written⟩
    have ofSub : command.key = config.socketKey other.name index := by
      simp only [writeSubSocket, List.mem_cons, List.not_mem_nil, or_false] at written
      rcases written with rfl | rfl <;> rfl
    exact absurd (addressed.trans ofSub).symm (socketKey_ne_channelKey index channel)
  · rw [List.mem_singleton.mp marks] at addressed ⊢
    rw [channelKey_injective addressed]
    rfl

/-- The fields of the hash after `WriteBindAddress`: the mark is set, the others are kept. -/
theorem hget_writeBindAddress (properties : Properties) {channel : Text}
    (bind : channel ∈ config.fBindChannels) (db : Db) (field : Field) :
    hget (execAll db (config.writeBindAddress properties)) (config.channelKey channel)
        field.text =
      if field = .bound then some ['1'] else hget db (config.channelKey channel) field.text := by
  have same (command : Command) (member : command ∈ config.writeBindAddress properties)
      (addressed : config.channelKey channel = command.key) :
      command = .hset (config.channelKey channel) boundFields ∨
        command = .expire (config.channelKey channel) :=
    Or.inl (markBound_of_key member addressed)
  split_ifs with isBound
  · subst isBound
    rcases Option.isSome_iff_exists.mp (AList.lookup_isSome.mpr bind) with ⟨sp, found⟩
    have marks : Command.hset (config.channelKey channel) boundFields ∈
        config.writeBindAddress properties :=
      List.mem_flatMap.mpr ⟨(channel, sp), mem_ordered.mpr found,
        List.mem_append_right _ List.mem_cons_self⟩
    exact hget_execAll_of_mem db (by decide) List.mem_cons_self same (Or.inl marks)
  · apply hget_execAll_of_notMem db _ same
    intro member
    exact isBound (Field.text_injective (List.mem_singleton.mp member))

/-- The record of a channel is read back whole, whatever the registry was and in whatever
order its fields come, and after `WriteBindAddress` with the mark and nothing else
changed. -/
theorem toSocketProperty_record (config : TopologyConfig) (db : Db) (sp : SocketProperty)
    (peers : List Text) (properties : Properties) (hash : Hash) (hasPeers : peers ≠ []) :
    (hash.entries.Perm (hgetall (execAll db (config.writeChannel sp peers))
        (config.channelKey sp.name)).entries → toSocketProperty hash = some sp) ∧
      (∀ later : TopologyConfig, sp.name ∈ later.fBindChannels →
        later.channelKey sp.name = config.channelKey sp.name →
          hash.entries.Perm (hgetall (execAll (execAll db (config.writeChannel sp peers))
            (later.writeBindAddress properties)) (config.channelKey sp.name)).entries →
          toSocketProperty hash = some { sp with bound := true }) := by
  have written (field : Field) := @hget_writeChannel config sp peers hasPeers db field
  constructor
  · intro perm
    apply toSocketProperty_of_fieldText
    intro field
    exact (lookup_of_perm perm field.text).trans (written field)
  · intro later bind sameKey perm
    apply toSocketProperty_of_fieldText
    intro field
    have marked := hget_writeBindAddress properties bind
      (execAll db (config.writeChannel sp peers)) field
    rw [sameKey, written] at marked
    rw [lookup_of_perm perm field.text, fieldText_bound]
    refine marked.trans ?_
    split_ifs <;> rfl

/-- A channel with a negative number. -/
def lingering : SocketProperty :=
  { name := "data".toList, type := "push".toList, method := "bind".toList, linger := -1 }

/-- A sampler with that channel. -/
def lingeringSampler : TopologyConfig :=
  { fTopPrefix := topPrefix, fServiceName := "Sampler".toList, fId := "Sampler-0".toList,
    fBindChannels := AList.singleton "data".toList lingering }

/-- Its record is read back before and after it is marked. -/
theorem toSocketProperty_record_lingering :
    toSocketProperty (hgetall (execAll ∅ (lingeringSampler.writeChannel lingering
        ["Sink".toList])) (lingeringSampler.channelKey lingering.name)) = some lingering ∧
      toSocketProperty (hgetall (execAll (execAll ∅ (lingeringSampler.writeChannel lingering
        ["Sink".toList])) (lingeringSampler.writeBindAddress ∅))
          (lingeringSampler.channelKey lingering.name)) = some { lingering with bound := true } :=
  ⟨(toSocketProperty_record lingeringSampler ∅ lingering ["Sink".toList] ∅ _
      (List.cons_ne_nil _ _)).1 (List.Perm.refl _),
    (toSocketProperty_record lingeringSampler ∅ lingering ["Sink".toList] ∅ _
      (List.cons_ne_nil _ _)).2 lingeringSampler (AList.mem_keys.mp List.mem_cons_self) rfl
        (List.Perm.refl _)⟩

end TopologyConfig

end NestDaq.Topology
