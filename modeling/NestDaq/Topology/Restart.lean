import NestDaq.Topology.Cycle

/-!
# Initialize after Reset

`Reset` clears the channels and deletes the registered keys, but it keeps the
links. An instance that has links and is initialized again appends the options
of a link it knows to those it has, and keeps links that the topology does not
have any more, which a new instance does not.
-/

namespace NestDaq.Topology

open NestDaq.Registry
open NestDaq.Store
open NestDaq.Transition

namespace TopologyConfig

variable {config : TopologyConfig} {db : Db} {name : Text}

/-- A newly constructed instance with the same settings. -/
def renew (config : TopologyConfig) : TopologyConfig :=
  { config with
    fBindChannels := ∅
    fConnectChannels := ∅
    fLinks := ∅
    fRegisteredKeys := [] }

/-- The options for the transport layer in `Initialize`. -/
def channelConfigOptions (initialized : TopologyConfig × Option (List Configured)) :
    Option (List Text) :=
  initialized.2.map fun configured => configured.map fun record => toChannelConfig record.sp

/-- The commands that publish the channels and their peers in `Initialize`. -/
def channelCommands (initialized : TopologyConfig × Option (List Configured)) :
    Option (List Command) :=
  initialized.2.map fun configured =>
    configured.flatMap fun record => initialized.1.writeChannel record.sp record.peers

/-- `Reset` and then `Initialize`, and the first `Initialize` of a new instance. -/
structure SameAsNew (config : TopologyConfig) (before db : Db) : Prop where
  bind : ((config.reset before).1.initializeTopology db).1.fBindChannels =
    (config.renew.initializeTopology db).1.fBindChannels
  connect : ((config.reset before).1.initializeTopology db).1.fConnectChannels =
    (config.renew.initializeTopology db).1.fConnectChannels
  links : ∀ name, ((config.reset before).1.initializeTopology db).1.fLinks.lookup name =
    (config.renew.initializeTopology db).1.fLinks.lookup name
  options : channelConfigOptions ((config.reset before).1.initializeTopology db) =
    channelConfigOptions (config.renew.initializeTopology db)
  commands : channelCommands ((config.reset before).1.initializeTopology db) =
    channelCommands (config.renew.initializeTopology db)

/-- The members beside the links. -/
def withoutLinks (config : TopologyConfig) : TopologyConfig :=
  { config with fLinks := ∅ }

/-- The instances differ in their links only, and one of them knows a link with
longer options than the other, if the other knows it. -/
structure Longer (name : Text) (stale fresh : TopologyConfig) : Prop where
  same : stale.withoutLinks = fresh.withoutLinks
  longer : ∃ known, stale.fLinks.lookup name = some known ∧
    ∀ lp, fresh.fLinks.lookup name = some lp → lp.options.length < known.options.length

theorem withoutLinks_addChannel (config : TopologyConfig) (sp : SocketProperty) :
    (config.addChannel sp).withoutLinks = config.withoutLinks.addChannel sp := by
  unfold addChannel
  split
  · rfl
  · split <;> rfl

theorem addChannel_fLinks (config : TopologyConfig) (sp : SocketProperty) :
    (config.addChannel sp).fLinks = config.fLinks := by
  unfold addChannel
  split
  · rfl
  · split <;> rfl

theorem Longer.addChannel {stale fresh : TopologyConfig} (longer : Longer name stale fresh)
    (sp : SocketProperty) : Longer name (stale.addChannel sp) (fresh.addChannel sp) := by
  constructor
  · rw [withoutLinks_addChannel, withoutLinks_addChannel, longer.same]
  · rw [addChannel_fLinks, addChannel_fLinks]
    exact longer.longer

theorem withoutLinks_addLink (config : TopologyConfig) (lp : LinkProperty) :
    (config.addLink lp).withoutLinks = config.withoutLinks := by
  rw [addLink]
  split <;> rfl

theorem addLink_fLinks (config : TopologyConfig) (lp : LinkProperty) :
    (config.addLink lp).fLinks =
      config.fLinks.insert (config.linkName lp)
        (match config.fLinks.lookup (config.linkName lp) with
        | some known => { known with options := known.options ++ [','] ++ lp.options }
        | none => lp) := by
  simp only [addLink]
  cases config.fLinks.lookup (config.linkName lp) with
  | none => rfl
  | some known => rfl

/-- Recording a link adds as much to the options that are there. -/
theorem Longer.addLink {stale fresh : TopologyConfig} (longer : Longer name stale fresh)
    (lp : LinkProperty) : Longer name (stale.addLink lp) (fresh.addLink lp) := by
  have sameName : stale.linkName lp = fresh.linkName lp := by
    have same := congrArg (fun config => config.linkName lp) longer.same
    exact same
  rcases longer.longer with ⟨known, isKnown, shorter⟩
  constructor
  · rw [withoutLinks_addLink, withoutLinks_addLink, longer.same]
  · rw [addLink_fLinks, addLink_fLinks, sameName]
    by_cases here : name = fresh.linkName lp
    · subst here
      rw [isKnown]
      refine ⟨_, AList.lookup_insert _, ?_⟩
      intro other found
      rw [AList.lookup_insert, Option.some.injEq] at found
      subst found
      cases before : fresh.fLinks.lookup (fresh.linkName lp) with
      | none =>
          simp only [List.length_append, List.length_singleton]
          omega
      | some old =>
          have less := shorter old before
          simp only [List.length_append, List.length_singleton]
          omega
    · rw [AList.lookup_insert_ne here, AList.lookup_insert_ne here]
      exact ⟨known, isKnown, shorter⟩

theorem publishChannels_fLinks (config : TopologyConfig) (db : Db)
    (channels : List SocketProperty) :
    (config.publishChannels db channels).1.fLinks = config.fLinks := by
  induction channels generalizing config db with
  | nil => rfl
  | cons sp rest ih =>
      rw [publishChannels]
      simp only
      rw [ih]
      unfold registerChannel storeChannel
      split <;> rfl

/-- Both instances read the same channel. -/
theorem Longer.readsChannel {stale fresh : TopologyConfig} (longer : Longer name stale fresh)
    (read : Option SocketProperty) :
    Option.Rel (Longer name) (read.map stale.addChannel) (read.map fresh.addChannel) := by
  cases read with
  | none => exact .none
  | some sp => exact .some (longer.addChannel sp)

/-- Both instances read the same endpoint. -/
theorem Longer.addEndpoint {stale fresh : TopologyConfig} (longer : Longer name stale fresh)
    (endpoint : Text) :
    Option.Rel (Longer name) (stale.addEndpoint db endpoint) (fresh.addEndpoint db endpoint) := by
  have same := congrArg (fun config => config.readEndpointProperty db endpoint) longer.same
  have sameProperty : stale.readEndpointProperty db endpoint =
      fresh.readEndpointProperty db endpoint := same
  rw [TopologyConfig.addEndpoint, TopologyConfig.addEndpoint, sameProperty]
  exact longer.readsChannel _

/-- Both instances read the same link. -/
theorem Longer.recordLink {stale fresh : TopologyConfig} (longer : Longer name stale fresh)
    (link : Text) :
    Option.Rel (Longer name) (stale.recordLink db link) (fresh.recordLink db link) := by
  have same := congrArg (fun config => config.readLinkProperty db link) longer.same
  have sameProperty : stale.readLinkProperty db link = fresh.readLinkProperty db link := same
  rw [TopologyConfig.recordLink, TopologyConfig.recordLink, sameProperty]
  cases fresh.readLinkProperty db link with
  | none => exact .none
  | some lp => exact .some (longer.addLink lp)

/-- `Initialize` reads the same topology into both instances. -/
theorem Longer.initializeTopology {stale fresh : TopologyConfig} (longer : Longer name stale fresh)
    (db : Db) : ∃ known, (stale.initializeTopology db).1.fLinks.lookup name = some known ∧
      ∀ lp, (fresh.initializeTopology db).1.fLinks.lookup name = some lp →
        lp.options.length < known.options.length := by
  have sameOption : stale.connectConfig = fresh.connectConfig := by
    have same := congrArg connectConfig longer.same
    exact same
  have options := @attempt_related _ _ _ addOption addOption _
    (fun both => both.readsChannel _) _ _ longer fresh.connectConfig
  rw [TopologyConfig.initializeTopology, TopologyConfig.initializeTopology, sameOption]
  rcases left : attempt addOption stale fresh.connectConfig with ⟨stale, read⟩
  rcases right : attempt addOption fresh fresh.connectConfig with ⟨fresh, otherRead⟩
  simp only [left, right] at options
  rcases options with ⟨longer, rfl⟩
  cases read with
  | false => exact longer.longer
  | true =>
      have sameEndpoints : stale.readEndpoints db = fresh.readEndpoints db := by
        have same := congrArg (fun config => config.readEndpoints db) longer.same
        exact same
      have endpoints := @attempt_related _ _ _ (TopologyConfig.addEndpoint · db)
        (TopologyConfig.addEndpoint · db) _ (fun both => both.addEndpoint _) _ _ longer
        (fresh.readEndpoints db)
      simp only [sameEndpoints]
      rcases left : attempt (TopologyConfig.addEndpoint · db) stale (fresh.readEndpoints db) with
        ⟨stale, read⟩
      rcases right : attempt (TopologyConfig.addEndpoint · db) fresh (fresh.readEndpoints db) with
        ⟨fresh, otherRead⟩
      simp only [left, right] at endpoints
      rcases endpoints with ⟨longer, rfl⟩
      cases read with
      | false => exact longer.longer
      | true =>
          have sameLinks : stale.readLinks db = fresh.readLinks db := by
            have same := congrArg (fun config => config.readLinks db) longer.same
            exact same
          have links := @attempt_related _ _ _ (TopologyConfig.recordLink · db)
            (TopologyConfig.recordLink · db) _ (fun both => both.recordLink _) _ _ longer
            (fresh.readLinks db)
          simp only [sameLinks]
          rcases left : attempt (TopologyConfig.recordLink · db) stale (fresh.readLinks db) with
            ⟨stale, read⟩
          rcases right : attempt (TopologyConfig.recordLink · db) fresh (fresh.readLinks db) with
            ⟨fresh, otherRead⟩
          simp only [left, right] at links
          rcases links with ⟨longer, rfl⟩
          cases read with
          | false => exact longer.longer
          | true =>
              simp only [publishChannels_fLinks]
              exact longer.longer

/-- A known link makes a difference. -/
theorem not_sameAsNew_of_link (config : TopologyConfig) (before db : Db) {lp : LinkProperty}
    (found : config.fLinks.lookup name = some lp) : ¬ SameAsNew config before db := by
  intro same
  have longer : Longer name (config.reset before).1 config.renew :=
    ⟨rfl, lp, found, fun other none => nomatch none⟩
  rcases longer.initializeTopology db with ⟨stale, isStale, shorter⟩
  exact absurd (shorter stale ((same.links name).symm.trans isStale)) (Nat.lt_irrefl _)

/-- An instance whose links are cleared is initialized as a new one, and no other is. -/
theorem sameAsNew_iff (config : TopologyConfig) (before db : Db) :
    SameAsNew config before db ↔ config.fLinks = ∅ := by
  constructor
  · intro same
    by_contra known
    have hasLink : ∃ name lp, config.fLinks.lookup name = some lp := by
      by_contra none
      apply known
      apply AList.ext
      rw [AList.empty_entries, List.eq_nil_iff_forall_not_mem]
      rintro ⟨name, lp⟩ member
      exact none ⟨name, lp, AList.mem_lookup_iff.mpr member⟩
    rcases hasLink with ⟨name, lp, found⟩
    exact config.not_sameAsNew_of_link before db found same
  · intro noLinks
    have equal : (config.reset before).1 = config.renew := by
      rw [reset, unregister, renew, noLinks]
    constructor <;> simp [equal]

/-- A registry with a link of the sampler. -/
def linkRegistry : Db :=
  set ∅ "daq_service:topology:link:Sampler:out,Sink:in".toList []

/-- The sampler after its first `Initialize`. -/
def linkedSampler : TopologyConfig :=
  (TopologyConfig.initializeTopology
    { fTopPrefix := topPrefix, fServiceName := "Sampler".toList, fId := "Sampler-0".toList }
    linkRegistry).1

/-- The second cycle of the sampler appends the options of its link once more. -/
theorem linkedSampler_not_sameAsNew : ¬ SameAsNew linkedSampler linkRegistry linkRegistry := by
  intro same
  have options : (((linkedSampler.reset linkRegistry).1.initializeTopology
        linkRegistry).1.fLinks.lookup "Sampler:out,Sink:in".toList).map (·.options) = some [','] ∧
      ((linkedSampler.renew.initializeTopology linkRegistry).1.fLinks.lookup
        "Sampler:out,Sink:in".toList).map (·.options) = some [] := by
    decide +kernel
  rw [same.links, options.2] at options
  nomatch options.1

/-- `Initialize` forgets no link. -/
theorem mem_fLinks_initializeTopology (known : name ∈ config.fLinks) (db : Db) :
    name ∈ (config.initializeTopology db).1.fLinks := by
  have channelKept {config next : TopologyConfig} {read : Option SocketProperty}
      (known : name ∈ config.fLinks) (added : read.map config.addChannel = some next) :
      name ∈ next.fLinks := by
    rcases Option.map_eq_some_iff.mp added with ⟨sp, _, rfl⟩
    rw [addChannel_fLinks]
    exact known
  have linkKept {config next : TopologyConfig} {read : Option LinkProperty}
      (known : name ∈ config.fLinks) (added : read.map config.addLink = some next) :
      name ∈ next.fLinks := by
    rcases Option.map_eq_some_iff.mp added with ⟨lp, _, rfl⟩
    rw [addLink_fLinks, AList.mem_insert]
    exact Or.inr known
  apply @initializeTopology_rule config db (fun config => name ∈ config.fLinks)
    (fun result => name ∈ result.1.fLinks) channelKept linkKept (fun _ known => known) _ known
  intro config known
  rw [publishChannels_fLinks]
  exact known

end TopologyConfig

namespace Instance

variable {V : Type} {transport : Transport V} {options : ProgramOptions} {inst next : Instance V}
  {name : Text}

/-- No operation forgets a link. -/
theorem mem_fLinks_step (known : name ∈ inst.config.fLinks) {operation : Operation}
    (stepped : inst.step transport options operation = some next) :
    name ∈ next.config.fLinks := by
  unfold step at stepped
  split at stepped
  · rename_i db _
    cases stepped
    have kept := TopologyConfig.mem_fLinks_initializeTopology known db
    simp only [initializeTopology]
    split
    · rename_i equal
      rw [equal] at kept
      exact kept
    · rename_i equal
      rw [equal] at kept
      split
      · exact kept
      · exact kept
  · cases stepped
    exact known
  · rename_i db views _
    cases stepped
    rcases inst.connect_eq transport db views with ⟨_, _, _, equal⟩
    simp only [equal]
    exact known
  · cases stepped
    exact known
  · cases stepped
  · cases stepped
    exact known
  · cases stepped

/-- Once an instance has recorded a link, it is never initialized as a new one again. -/
theorem not_sameAsNew_of_run {last : Instance V} {operations : List Operation}
    (known : name ∈ inst.config.fLinks)
    (reached : run (step transport options) inst operations = some last) (before db : Db) :
    ¬ last.config.SameAsNew before db := by
  have stillKnown : name ∈ last.config.fLinks :=
    @run_invariant _ _ (step transport options) (fun _ _ => True)
      (fun inst => name ∈ inst.config.fLinks)
      (fun known _ stepped => mem_fLinks_step known stepped) _ _ _ known
      (meets_of_forall (fun _ _ => trivial) _ _) reached
  rcases Option.isSome_iff_exists.mp (AList.lookup_isSome.mpr stillKnown) with ⟨lp, found⟩
  exact last.config.not_sameAsNew_of_link before db found

end Instance

end NestDaq.Topology
