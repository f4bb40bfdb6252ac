import NestDaq.Store.Db

/-!
# Registry keys

The fixed names of the key space and the shape of the keys built from them. A
key joins its parts with the separator, so parts without the separator can be
recovered from the key, and a pattern with one `*` part selects the keys that
have the other parts around some text.
-/

namespace NestDaq.Registry

def topPrefix : Text := "daq_service".toList
def presencePrefix : Text := "presence".toList
def healthPrefix : Text := "health".toList
def fairMQStatePrefix : Text := "fair-mq-state".toList
def serviceInstanceIndexPrefix : Text := "service-instance-index".toList
def topologyPrefix : Text := "topology".toList
def endpointPrefix : Text := "endpoint".toList
def linkPrefix : Text := "link".toList
def channelPrefix : Text := "channel".toList
def peerPrefix : Text := "peer".toList
def socketPrefix : Text := "socket".toList

/-- The default separator. -/
def colon : Text := [':']

/-- A part of a key: it does not contain the separator. -/
def Part (text : Text) : Prop :=
  ':' ∉ text

instance (text : Text) : Decidable (Part text) :=
  inferInstanceAs (Decidable (':' ∉ text))

@[simp] theorem part_topPrefix : Part topPrefix := by decide
@[simp] theorem part_presencePrefix : Part presencePrefix := by decide
@[simp] theorem part_healthPrefix : Part healthPrefix := by decide
@[simp] theorem part_topologyPrefix : Part topologyPrefix := by decide
@[simp] theorem part_endpointPrefix : Part endpointPrefix := by decide
@[simp] theorem part_linkPrefix : Part linkPrefix := by decide
@[simp] theorem part_channelPrefix : Part channelPrefix := by decide
@[simp] theorem part_peerPrefix : Part peerPrefix := by decide
@[simp] theorem part_socketPrefix : Part socketPrefix := by decide

/-- A name of letters, digits, `_` and `-`. -/
def Name (text : Text) : Prop :=
  ∀ char ∈ text, char.isAlphanum ∨ char = '_' ∨ char = '-'

instance (text : Text) : Decidable (Name text) :=
  inferInstanceAs (Decidable (∀ char ∈ text, _))

theorem Name.notMem {text : Text} (name : Name text) {char : Char}
    (other : ¬ (char.isAlphanum ∨ char = '_' ∨ char = '-')) : char ∉ text :=
  fun member => other (name char member)

theorem Name.part {text : Text} (name : Name text) : Part text :=
  name.notMem (by decide)

theorem Name.commaFree {text : Text} (name : Name text) : ',' ∉ text :=
  name.notMem (by decide)

theorem Name.dotFree {text : Text} (name : Name text) : '.' ∉ text :=
  name.notMem (by decide)

theorem Name.plain {text : Text} (name : Name text) : Glob.Plain text := by
  intro char member
  have noneSpecial : ∀ special ∈ Glob.special,
      ¬ (special.isAlphanum ∨ special = '_' ∨ special = '-') := by decide
  exact fun special => noneSpecial char special (name char member)

/-- `<top>:<service>:<instance>:presence`. -/
def presenceKey (service instanceId : Text) : Text :=
  Text.join [topPrefix, service, instanceId, presencePrefix] colon

/-- `<top>:<service>:<instance>:channel:<channel>`. -/
def instanceChannelKey (service instanceId channel : Text) : Text :=
  Text.join [topPrefix, service, instanceId, channelPrefix, channel] colon

theorem presenceKey_eq (service instanceId : Text) :
    presenceKey service instanceId =
      topPrefix ++ ':' :: (service ++ ':' :: (instanceId ++ ':' :: presencePrefix)) := by
  simp [presenceKey, colon]

theorem prefix_presenceKey (service instanceId : Text) :
    topPrefix ++ ':' :: (service ++ [':']) <+: presenceKey service instanceId :=
  ⟨instanceId ++ ':' :: presencePrefix, by simp [presenceKey_eq]⟩

theorem presenceKey_right_injective (service : Text) :
    Function.Injective (presenceKey service) := by
  intro first second equal
  simp only [presenceKey_eq, List.append_cancel_left_eq, List.cons.injEq, true_and] at equal
  exact List.append_cancel_right equal

/-- `<top>:topology:endpoint:<service>:<channel>`. -/
def serviceEndpointKey (service channel : Text) : Text :=
  Text.join [topPrefix, topologyPrefix, endpointPrefix, service, channel] colon

/-- `<top>:<service>:<instance>:health`. -/
def healthKey (service instanceId : Text) : Text :=
  Text.join [topPrefix, service, instanceId, healthPrefix] colon

/-- The instance key in front of the parts of an instance. -/
def instanceKey (service instanceId : Text) : Text :=
  Text.join [topPrefix, service, instanceId] colon

theorem instanceKey_eq (service instanceId : Text) :
    instanceKey service instanceId = topPrefix ++ ':' :: (service ++ ':' :: instanceId) := by
  simp [instanceKey, colon]

theorem instanceChannelKey_eq (service instanceId channel : Text) :
    instanceChannelKey service instanceId channel =
      topPrefix ++ ':' :: (service ++ ':' :: (instanceId ++ ':' :: (channelPrefix ++ ':' ::
        channel))) := by
  simp [instanceChannelKey, colon]

/-- `<top>:<service>:<instance>:channel:<channel>:peer`. -/
def instancePeerKey (service instanceId channel : Text) : Text :=
  Text.join [topPrefix, service, instanceId, channelPrefix, channel, peerPrefix] colon

theorem instancePeerKey_eq (service instanceId channel : Text) :
    instancePeerKey service instanceId channel =
      instanceChannelKey service instanceId channel ++ ':' :: peerPrefix := by
  simp [instancePeerKey, instanceChannelKey, colon]

theorem instanceChannelKey_right_injective (service instanceId : Text) :
    Function.Injective (instanceChannelKey service instanceId) := by
  intro first second equal
  simpa [instanceChannelKey_eq] using equal

/-- A channel key determines the service, the instance and the channel, also
when the instance part is any text. -/
theorem instanceChannelKey_injective
    {service service' instanceId instanceId' channel channel' : Text}
    (part : Part service) (part' : Part service')
    (channelPart : Part channel) (channelPart' : Part channel')
    (equal : instanceChannelKey service instanceId channel =
      instanceChannelKey service' instanceId' channel') :
    service = service' ∧ instanceId = instanceId' ∧ channel = channel' := by
  simp only [instanceChannelKey_eq, List.append_cancel_left_eq, List.cons.injEq, true_and] at equal
  obtain ⟨sameService, rest⟩ := Text.append_separator_inj part part' equal
  have regroup (instanceId channel : Text) :
      instanceId ++ ':' :: (channelPrefix ++ ':' :: channel) =
        (instanceId ++ ':' :: channelPrefix) ++ ':' :: channel := by
    simp
  rw [regroup, regroup] at rest
  obtain ⟨front, sameChannel⟩ := Text.append_separator_inj_last channelPart channelPart' rest
  exact ⟨sameService, List.append_cancel_right front, sameChannel⟩

theorem instancePeerKey_right_injective (service instanceId : Text) :
    Function.Injective (instancePeerKey service instanceId) := by
  intro first second equal
  rw [instancePeerKey_eq, instancePeerKey_eq] at equal
  exact instanceChannelKey_right_injective _ _ (List.append_cancel_right equal)

theorem instancePeerKey_ne_instanceChannelKey {channel : Text} (part : Part channel)
    (service instanceId channel' : Text) :
    instancePeerKey service instanceId channel' ≠
      instanceChannelKey service instanceId channel := by
  intro equal
  have tail : channel' ++ ':' :: peerPrefix = channel := by
    simpa [instancePeerKey_eq, instanceChannelKey_eq] using equal
  exact part (tail ▸ List.mem_append_right _ List.mem_cons_self)

/-- The pattern for the presence keys of a service accepts its presence keys,
where the instance part may be any text. -/
theorem stringmatch_presence {service : Text} (plain : Glob.Plain service) (key : Text) :
    Glob.stringmatch (presenceKey service ['*']) key ↔
      ∃ instanceId, key = presenceKey service instanceId := by
  have before : Glob.Plain (topPrefix ++ ':' :: (service ++ [':'])) :=
    Glob.Plain.append (by decide)
      (Glob.Plain.cons (by decide) (plain.append (by decide)))
  have pattern : presenceKey service ['*'] =
      (topPrefix ++ ':' :: (service ++ [':'])) ++ '*' :: (':' :: presencePrefix) := by
    simp [presenceKey_eq]
  rw [pattern, Glob.stringmatch_around before (by decide)]
  simp [presenceKey_eq]

end NestDaq.Registry
