import NestDaq.Text.Split
import NestDaq.Topology.Address
import NestDaq.Topology.Discovery

/-!
# Keys of peer channels

`Initialize` writes the key of a peer's channel, and `ReadPeerAddress` and `ReadPeerIP` take
the instance and the channel from it again. The end of the instance is found by the first
occurrence of the channel prefix behind a separator, and the sub-sockets by a pattern that
the names are written into. Both go wrong for some names without the separator.
-/

namespace NestDaq.Topology

open NestDaq.Store
open NestDaq.Registry
open TopologyConfig (sampler sampler_standard)

variable {config : TopologyConfig} {service instanceId channel : Text}

/-- The channel's name in `ReadPeerAddress`. -/
def TopologyConfig.peerChannel (config : TopologyConfig) (peer : Text) : Text :=
  Text.substrFrom peer (Text.after (Text.findLastOf peer config.fSeparator))

/-- What is taken from the key of a peer's channel is what has been put into it: the health
hash of the instance is read, and the socket hashes of its channel and no others. -/
structure Decodes (config : TopologyConfig) (service instanceId channel : Text) : Prop where
  ofInstance : config.peerInstanceKey (config.peerKey channel (presenceKey service instanceId)) =
    instanceKey service instanceId
  ofHealth : config.peerHealthKey (config.peerKey channel (presenceKey service instanceId)) =
    healthKey service instanceId
  ofChannel : config.peerChannel (config.peerKey channel (presenceKey service instanceId)) =
    channel
  ofSockets : ∀ db key,
    key ∈ scan db
        (config.subSocketPattern (config.peerKey channel (presenceKey service instanceId))) ↔
      key ∈ db ∧ socketKeyPrefix service instanceId channel <+: key

/-- A part that begins with the channel prefix ends the instance key too early. -/
theorem peerInstanceKey_ne (standard : config.Standard) {before after : Text}
    (whole : instanceChannelKey service instanceId channel =
      before ++ (':' :: channelPrefix ++ after))
    (early : before.length < (instanceKey service instanceId).length) :
    config.peerInstanceKey (instanceChannelKey service instanceId channel) ≠
      instanceKey service instanceId := by
  intro same
  rcases Text.exists_find_le before (':' :: channelPrefix) after with ⟨position, below, found⟩
  rw [← whole] at found
  have cut : config.peerInstanceKey (instanceChannelKey service instanceId channel) =
      (instanceChannelKey service instanceId channel).take position := by
    rw [TopologyConfig.peerInstanceKey, standard.separator,
      show colon ++ channelPrefix = ':' :: channelPrefix from rfl, found]
    rfl
  have short := congrArg List.length (cut.symm.trans same)
  rw [List.length_take] at short
  omega

/-- The instance key is recovered if and only if neither the service nor the instance begins
with the channel prefix. -/
theorem peerInstanceKey_eq_iff (standard : config.Standard) (servicePart : Part service)
    (idPart : Part instanceId) :
    config.peerInstanceKey (instanceChannelKey service instanceId channel) =
        instanceKey service instanceId ↔
      ¬ channelPrefix <+: service ∧ ¬ channelPrefix <+: instanceId := by
  constructor
  · intro same
    constructor
    · rintro ⟨rest, rfl⟩
      have whole : instanceChannelKey (channelPrefix ++ rest) instanceId channel =
          topPrefix ++ (':' :: channelPrefix ++
            (rest ++ ':' :: (instanceId ++ ':' :: (channelPrefix ++ ':' :: channel)))) := by
        simp [instanceChannelKey_eq]
      exact peerInstanceKey_ne standard whole (by simp [instanceKey_eq]) same
    · rintro ⟨rest, rfl⟩
      have whole : instanceChannelKey service (channelPrefix ++ rest) channel =
          (topPrefix ++ ':' :: service) ++ (':' :: channelPrefix ++
            (rest ++ ':' :: (channelPrefix ++ ':' :: channel))) := by
        simp [instanceChannelKey_eq]
      exact peerInstanceKey_ne standard whole (by simp [instanceKey_eq]) same
  · rintro ⟨serviceFree, idFree⟩
    exact TopologyConfig.peerInstanceKey_of_free standard servicePart idPart serviceFree idFree

/-- The pattern of the sub-sockets accepts the keys under the channel's socket prefix if and
only if the names have no character with a meaning of its own in a pattern. -/
theorem forall_mem_scan_iff (standard : config.Standard) (channelPart : Part channel)
    (found : config.peerInstanceKey (instanceChannelKey service instanceId channel) =
      instanceKey service instanceId) :
    (∀ db key,
        key ∈ scan db (config.subSocketPattern (instanceChannelKey service instanceId channel)) ↔
          key ∈ db ∧ socketKeyPrefix service instanceId channel <+: key) ↔
      Glob.Plain service ∧ Glob.Plain instanceId ∧ Glob.Plain channel := by
  rw [← TopologyConfig.plain_socketKeyPrefix_iff, ← Glob.forall_stringmatch_iff_prefix_iff,
    TopologyConfig.subSocketPattern_eq standard channelPart found]
  constructor
  · intro scanned text
    have member : text ∈ (AList.singleton text (.string []) : Db) :=
      AList.mem_keys.mpr List.mem_cons_self
    have here := scanned (AList.singleton text (.string [])) text
    rw [mem_scan, and_iff_right member, and_iff_right member] at here
    exact here
  · intro matched db key
    rw [mem_scan, matched]

/-- What `ReadPeerAddress` and `ReadPeerIP` read for the key of a peer's channel belongs to
the instance and the channel, if and only if neither the service nor the instance begins with
the channel prefix, and no name has a character with a meaning of its own in a pattern. -/
theorem decodes_iff (standard : config.Standard) (servicePart : Part service)
    (idPart : Part instanceId) (channelPart : Part channel) :
    Decodes config service instanceId channel ↔
      (¬ channelPrefix <+: service ∧ ¬ channelPrefix <+: instanceId) ∧
        Glob.Plain service ∧ Glob.Plain instanceId ∧ Glob.Plain channel := by
  have peer := TopologyConfig.peerKey_presenceKey standard channel service instanceId
  rw [← @peerInstanceKey_eq_iff config service instanceId channel standard servicePart idPart]
  constructor
  · rintro ⟨ofInstance, -, -, ofSockets⟩
    rw [peer] at ofInstance ofSockets
    exact ⟨ofInstance, (forall_mem_scan_iff standard channelPart ofInstance).mp ofSockets⟩
  · rintro ⟨found, plain⟩
    constructor
    · rw [peer, found]
    · rw [peer, TopologyConfig.peerHealthKey, found]
      simp [TopologyConfig.key, standard.separator, colon, instanceKey_eq, healthKey]
    · rw [peer]
      exact TopologyConfig.substrFrom_instanceChannelKey standard channelPart
    · rw [peer]
      exact (forall_mem_scan_iff standard channelPart found).mpr plain

/-- The key of a service whose name begins with the channel prefix is cut behind the first
part. -/
theorem channelizer_not_decodes :
    ¬ ∀ (config : TopologyConfig) (service instanceId channel : Text), config.Standard →
      Part service → Part instanceId → Part channel →
        Decodes config service instanceId channel := by
  intro all
  have decoded := (all sampler "channelizer".toList "channelizer-0".toList "out".toList
    sampler_standard (by decide) (by decide) (by decide)).ofInstance
  rw [TopologyConfig.peerKey_presenceKey sampler_standard] at decoded
  have free := (peerInstanceKey_eq_iff sampler_standard (by decide) (by decide)).mp decoded
  exact free.1 (by decide)

/-- The prefix makes no difference inside of a name, or in the name of a channel. -/
theorem digitizer_decodes :
    Decodes sampler "adc-channel".toList "adc-channel-0".toList "channel".toList :=
  (decodes_iff sampler_standard (by decide) (by decide) (by decide)).mpr
    ⟨⟨by decide, by decide⟩, by decide, by decide, by decide⟩

end NestDaq.Topology
