import NestDaq.Registry.Presence
import NestDaq.Text.Split

/-!
# Expired keys

When a key expires, the controller looks for the text `presence` in it, takes the
second and the third part as service and instance, and deletes the field of the index
hash that follows the first hyphen of the instance. This takes back what `SetId` has
written for services without a hyphen, and keys that have `presence` elsewhere in
their parts are taken for presence keys.
-/

namespace NestDaq

namespace Controller

open Registry
open Store

/-- `ProcessExpiredKey`, `none` where a part is taken that the key does not have. -/
def processExpiredKey (key : Text) (db : Db) : Option Db :=
  if (Text.find key presencePrefix).isSome then
    match Text.split key colon with
    | _ :: serviceName :: instName :: _ =>
        let instIndex := Text.substrFrom instName (Text.after (Text.find instName ['-']))
        some (hdel db (indexKey serviceName) instIndex)
    | _ => none
  else some db

def progOptionPrefix : Text := "option".toList

/-- The other keys that the plugins write for an instance. -/
inductive OtherKey where
  | health
  | fairMQState
  | updateTime
  | progOption
  | channel (name : Text)
  | peers (name : Text)
  | socket (name : Text) (index : Nat)

/-- The parts behind the instance. -/
def OtherKey.parts : OtherKey → List Text
  | .health => [healthPrefix]
  | .fairMQState => [fairMQStatePrefix]
  | .updateTime => [updateTimePrefix]
  | .progOption => [progOptionPrefix]
  | .channel name => [channelPrefix, name]
  | .peers name => [channelPrefix, name, peerPrefix]
  | .socket name index =>
      [socketPrefix, Text.join ["chans".toList, name, Text.decimal index] ['.']]

/-- The key of an instance. -/
def OtherKey.key (service instanceId : Text) (other : OtherKey) : Text :=
  Text.join ([topPrefix, service, instanceId] ++ other.parts) colon

theorem OtherKey.key_eq (service instanceId : Text) (other : OtherKey) :
    other.key service instanceId =
      topPrefix ++ ':' :: (service ++ ':' ::
        (instanceId ++ ':' :: Text.join other.parts colon)) := by
  cases other <;> simp [key, parts, colon]

/-- A key with the text is taken for a presence key of its second and third part. -/
theorem processExpiredKey_eq {service instName rest : Text} (service_ : Part service)
    (split : ∃ others, Text.split rest colon = instName :: others)
    (found : presencePrefix <:+: topPrefix ++ ':' :: (service ++ ':' :: rest)) (db : Db) :
    processExpiredKey (topPrefix ++ ':' :: (service ++ ':' :: rest)) db =
      some (hdel db (indexKey service)
        (Text.substrFrom instName (Text.after (Text.find instName ['-'])))) := by
  obtain ⟨others, split⟩ := split
  have parts : Text.split (topPrefix ++ ':' :: (service ++ ':' :: rest)) colon =
      topPrefix :: service :: instName :: others := by
    rw [colon, Text.split_append_cons part_topPrefix, Text.split_append_cons service_]
    rw [colon] at split
    rw [split]
  rw [processExpiredKey, if_pos (Text.isSome_find_iff.mpr found), parts]

theorem exists_split_eq_cons (text : Text) :
    ∃ first others, Text.split text colon = first :: others :=
  List.exists_cons_of_ne_nil (List.splitOnP_ne_nil _ text)

/-- Some registry has the field that is deleted. -/
theorem exists_hdel_ne (key field : Text) : ¬ ∀ db : Db, hdel db key field = db := by
  intro kept
  have deleted := @hget_hdel (hset ∅ key [(field, [])]) key field field
  rw [kept, if_pos rfl, hget_hset, lookup_setFields_of_mem (by simp) List.mem_cons_self] at deleted
  cases deleted

/-- In some registry it matters which field is deleted. -/
theorem hdel_injective {key first second : Text}
    (same : ∀ db : Db, hdel db key first = hdel db key second) : first = second := by
  by_contra differs
  have deleted := @hget_hdel (hset ∅ key [(first, [])]) key first first
  rw [same, hget_hdel, if_neg differs, if_pos rfl, hget_hset,
    lookup_setFields_of_mem (by simp) List.mem_cons_self] at deleted
  cases deleted

/-- Another key deletes nothing exactly if it does not contain the text. -/
theorem processExpiredKey_other_iff {service instanceId : Text} (isPart : Part service)
    (other : OtherKey) :
    (∀ db, processExpiredKey (other.key service instanceId) db = some db) ↔
      ¬ presencePrefix <:+: other.key service instanceId := by
  constructor
  · intro kept found
    rw [OtherKey.key_eq] at kept found
    obtain ⟨instName, split⟩ :=
      exists_split_eq_cons (instanceId ++ ':' :: Text.join other.parts colon)
    have deleted := processExpiredKey_eq isPart split found
    exact exists_hdel_ne (indexKey service) _ fun db =>
      Option.some.inj ((deleted db).symm.trans (kept db))
  · intro absent db
    rw [processExpiredKey, if_neg]
    rw [Text.isSome_find_iff]
    exact absent

/-- The field that is deleted for an id of a service without a hyphen, and with one. -/
theorem substrFrom_find_indexedId {service : Text} (noHyphen : '-' ∉ service) (index : Text) :
    Text.substrFrom (indexedId service index)
      (Text.after (Text.find (indexedId service index) ['-'])) = index := by
  have position : Text.find (indexedId service index) ['-'] = some service.length := by
    have atHyphen : Text.find ('-' :: index) ['-'] = some 0 := Text.find_of_prefix ⟨index, rfl⟩
    rw [indexedId, Text.find_append_of_notMem noHyphen, atHyphen, Option.map_some, Nat.zero_add]
  rw [position]
  exact Text.substrFrom_separator _ _ _

theorem substrFrom_find_hyphen {front : Text} (noHyphen : '-' ∉ front) (back index : Text) :
    Text.substrFrom (indexedId (front ++ '-' :: back) index)
      (Text.after (Text.find (indexedId (front ++ '-' :: back) index) ['-'])) =
        indexedId back index := by
  have split : indexedId (front ++ '-' :: back) index = indexedId front (indexedId back index) := by
    simp [indexedId]
  rw [split]
  exact substrFrom_find_indexedId noHyphen _

theorem part_indexedId {service : Text} (isPart : Part service) (index : Nat) :
    Part (indexedId service (Text.decimal index)) := by
  intro member
  rcases List.mem_append.mp member with inService | inIndex
  · exact isPart inService
  · rcases List.mem_cons.mp inIndex with isHyphen | inDigits
    · cases isHyphen
    · exact absurd (Text.isDigit_of_mem_decimal inDigits) (by decide)

/-- What is deleted when the presence key of an instance expires. -/
theorem processExpiredKey_presenceKey {service instanceId : Text} (isPart : Part service)
    (isId : Part instanceId) (db : Db) :
    processExpiredKey (presenceKey service instanceId) db = some (hdel db (indexKey service)
      (Text.substrFrom instanceId (Text.after (Text.find instanceId ['-'])))) := by
  rw [presenceKey_eq]
  refine processExpiredKey_eq isPart ⟨_, Text.split_append_cons isId _⟩ ?_ db
  exact ⟨topPrefix ++ ':' :: (service ++ ':' :: (instanceId ++ [':'])), [], by simp⟩

/-- The presence key of an instance deletes its field exactly if the service has no hyphen. -/
theorem processExpiredKey_presence_iff {service : Text} (isPart : Part service) (index : Nat) :
    (∀ db, processExpiredKey (presenceKey service (indexedId service (Text.decimal index))) db =
        some (hdel db (indexKey service) (Text.decimal index))) ↔
      '-' ∉ service := by
  have deleted := @processExpiredKey_presenceKey _ _ isPart (part_indexedId isPart index)
  constructor
  · intro inverts hyphen
    obtain ⟨front, back, rfl, noHyphen⟩ := List.eq_append_cons_of_mem hyphen
    have field (db : Db) := Option.some.inj ((deleted db).symm.trans (inverts db))
    have same := hdel_injective field
    rw [substrFrom_find_hyphen noHyphen] at same
    have lengths := congrArg List.length same
    rw [indexedId, List.length_append, List.length_cons] at lengths
    omega
  · intro noHyphen db
    rw [deleted, substrFrom_find_indexedId noHyphen]

/-- The expiry of the presence key of an instance deletes exactly the field that `SetId`
wrote, and that of another key deletes nothing, if and only if the service has no hyphen
and the other key does not contain the text `presence`. -/
theorem processExpiredKey_iff {service otherService : Text} (isPart : Part service)
    (otherIsPart : Part otherService) (index : Nat) (otherId : Text) (other : OtherKey) :
    ((∀ db, processExpiredKey (presenceKey service (indexedId service (Text.decimal index))) db =
        some (hdel db (indexKey service) (Text.decimal index))) ∧
      ∀ db, processExpiredKey (other.key otherService otherId) db = some db) ↔
      '-' ∉ service ∧ ¬ presencePrefix <:+: other.key otherService otherId :=
  and_congr (processExpiredKey_presence_iff isPart index)
    (processExpiredKey_other_iff otherIsPart other)

/-- The presence and the health of the first sampler. -/
theorem processExpiredKey_sampler :
    (∀ db, processExpiredKey
        (presenceKey "Sampler".toList (indexedId "Sampler".toList (Text.decimal 0))) db =
          some (hdel db (indexKey "Sampler".toList) (Text.decimal 0))) ∧
      ∀ db, processExpiredKey (OtherKey.health.key "Sampler".toList "Sampler-0".toList) db =
        some db :=
  (processExpiredKey_iff (by decide) (by decide) 0 _ .health).mpr ⟨by decide, by decide +kernel⟩

/-- The registry after the first instance of a service with a hyphen has started. -/
def fileSinkRegistry : Db :=
  hset ∅ (indexKey "file-sink".toList) [(Text.decimal 0, "u".toList)]

/-- The first instance of that service keeps its index when its presence expires. -/
theorem fileSink_not_deleted :
    ¬ ∀ db, processExpiredKey
        (presenceKey "file-sink".toList (indexedId "file-sink".toList (Text.decimal 0))) db =
          some (hdel db (indexKey "file-sink".toList) (Text.decimal 0)) := by
  intro inverts
  have deleted := inverts fileSinkRegistry
  have kept : (processExpiredKey
      (presenceKey "file-sink".toList (indexedId "file-sink".toList (Text.decimal 0)))
      fileSinkRegistry).map (hget · (indexKey "file-sink".toList) (Text.decimal 0)) =
        some (some "u".toList) := by decide +kernel
  rw [deleted, Option.map_some, hget_hdel, if_pos rfl] at kept
  cases kept

end Controller

end NestDaq
