import NestDaq.Topology.Place

/-!
# No circular wait

Instances that wait for the channels of their bind peers cannot be held for long,
since nobody waits before marking its own channels. What is left are instances that
wait for the states of their connect peers, and these waits follow the declared
links: when they form no cycle, some instance is free.
-/

namespace NestDaq.Topology

open NestDaq.Plugin
open NestDaq.Registry
open NestDaq.Store
open NestDaq.Transition
open TopologyConfig

variable {ι : Type} {links : List LinkKey} {instances : ι → TopologyConfig} {db later : Db}
  {config : TopologyConfig} {order : List Text → List Text}

/-- What holds of every instance in every reachable state. -/
structure Keeps (links : List LinkKey) (instances : ι → TopologyConfig) (db : Db)
    (config : TopologyConfig) (later : Db) (inst : Connector) : Prop where
  observed : Observed instances db later
  placed : Placed links instances db config inst
  marks : MarksChannels config later inst
  ready : ShowsReady config later inst

theorem keeps_beforeConnect (instances : ι → TopologyConfig) (db : Db) (i : ι) :
    Keeps links instances db (instances i) db ((beforeConnect instances db).party i) := by
  constructor
  · exact ⟨fun _ _ => rfl, fun _ isSome => Or.inr isSome⟩
  · exact rfl
  · intro after
    cases after
  · intro ready
    cases ready

section Run

variable [DecidableEq ι] {network last : Network ι Db Connector}
  {actions : List (ι × ConnectAction)}

/-- No instance is in a place that its own steps or those of the others could spoil. -/
theorem Keeps.run (assembly : Assembly links instances db)
    (perm : ∀ keys, (order keys).Perm keys.dedup)
    (initial : ∀ i, Keeps links instances db (instances i) network.shared (network.party i))
    (reached : Transition.run (Network.step (Connector.step order)) network actions = some last)
    (i : ι) : Keeps links instances db (instances i) last.shared (last.party i) := by
  apply @Network.run_invariant _ _ _ _ _ _
    (fun i later inst => Keeps links instances db (instances i) later inst) _ _ _ _ _ initial
    reached
  · intro i later inst action result keeps stepped
    exact {
      observed := keeps.observed.step assembly keeps.placed stepped
      placed := keeps.placed.step assembly perm keeps.observed stepped
      marks := keeps.marks.step (assembly.standard i) keeps.placed stepped
      ready := ShowsReady.step keeps.placed stepped }
  · intro i j later inst other action result differs keeps keepsOther stepped
    -- Nothing in the region of another instance changes.
    have same {key : Text} (inRegion : Region (instances j) key) :
        result.1.lookup key = later.lookup key := by
      apply lookup_step (assembly.standard i) keeps.placed stepped
      intro here
      rcases here.unique (assembly.name i) (assembly.name j) inRegion with ⟨service, instanceId⟩
      exact differs (assembly.distinct i j service instanceId).symm
    constructor
    · exact keeps.observed.step assembly keeps.placed stepped
    · exact keepsOther.placed
    · intro after name member
      have isName : ChannelName name := by
        rcases Option.isSome_iff_exists.mp (AList.lookup_isSome.mpr member) with ⟨sp, found⟩
        rcases (keepsOther.placed.described after).bind name sp found with ⟨-, base, declares, -⟩
        exact assembly.channelName j declares.stored
      rw [isBound_congr (same (region_instanceChannelKey isName))]
      exact keepsOther.marks after name member
    · intro ready
      rw [get_congr (same (region_stateKey (assembly.standard j)))]
      exact keepsOther.ready ready

end Run

/-! ## Who is held -/

/-- The first service binds, with `waitForPeerConnection`, a channel that the second
one connects to. -/
def WaitsFor (links : List LinkKey) (db : Db) (first second : Text) : Prop :=
  ∃ link ∈ links, ∃ channel far base, link.Joins (first, channel) (second, far) ∧
    DeclaresEndpoint db first channel base ∧ base.method = "bind".toList ∧
      base.waitForPeerConnection = true

section Held

variable {i : ι} {current : TopologyConfig} {inst : Connector}

theorem free_of_not_bindWritten (before : inst.bindWritten = false) :
    inst.Unfinished ∧ inst.held later = false := by
  rcases inst with ⟨current, stage⟩
  cases stage <;> cases before
  all_goals
    constructor
    · intro same
      cases same
    · rfl

theorem free_of_mem_commands {command : Command} (member : command ∈ inst.stage.commands) :
    inst.Unfinished ∧ inst.held later = false := by
  rcases inst with ⟨current, stage⟩
  cases stage with
  | publishing | marking | announcing =>
      constructor
      · intro same
        cases same
      · rfl
  | _ => cases member

/-- The state keys below a service key are those with any text for the instance. -/
theorem mem_stateKeys (standard : config.Standard) {service : Text} (plain : Glob.Plain service)
    {key : Text} (member : key ∈ config.stateKeys later
      (config.key [config.fTopPrefix, service, ['*']])) :
    ∃ instanceId, key = instanceStateKey service instanceId := by
  have before : Glob.Plain (topPrefix ++ ':' :: (service ++ [':'])) :=
    Glob.Plain.append (by decide) (Glob.Plain.cons (by decide) (plain.append (by decide)))
  have pattern : config.key [config.key [config.fTopPrefix, service, ['*']], fairMQStatePrefix] =
      (topPrefix ++ ':' :: (service ++ [':'])) ++ '*' :: (':' :: fairMQStatePrefix) := by
    simp [TopologyConfig.key, standard.top, standard.separator, colon]
  rw [stateKeys, pattern, mem_scan, Glob.stringmatch_around before (by decide)] at member
  rcases member with ⟨-, instanceId, rfl⟩
  exact ⟨instanceId, by simp [instanceStateKey, colon]⟩

/-- A service whose state `WaitForPeerConnection` reads is one that the instance waits
for. -/
theorem waitsFor_of_mem_peerServiceKeys (assembly : Assembly links instances db)
    (described : Described links db (instances i) current) {service : Text}
    (member : service ∈ current.peerServiceKeys) : ∃ peer,
      service = current.key [current.fTopPrefix, peer, ['*']] ∧ Glob.Plain peer ∧ Part peer ∧
        IsEnd links peer ∧ WaitsFor links db (instances i).fServiceName peer := by
  rcases List.mem_flatMap.mp member with ⟨channel, inChannels, member⟩
  rcases List.mem_filter.mp inChannels with ⟨inChannels, waits⟩
  rcases List.mem_filterMap.mp member with ⟨entry, inLinks, member⟩
  rcases (assembly.separate i).near described.recorded (mem_ordered.mp inLinks) with
    ⟨my, other, -, wellFormed, link, inDeclared, joins⟩
  rcases described.bind channel.1 channel.2 (mem_ordered.mp inChannels) with
    ⟨sameName, base, declares, isBind, sameWait⟩
  simp only [described.sameService, my, true_and] at member
  split at member
  · rename_i sameChannel
    cases member
    refine ⟨entry.2.peerService, rfl, wellFormed.plainR, wellFormed.serviceR.1, ?_, link,
      inDeclared, channel.1, entry.2.peerChannel, base, ?_, declares, isBind, ?_⟩
    · rcases joins with ⟨-, far⟩ | ⟨-, far⟩
      · exact ⟨link, inDeclared, Or.inr (congrArg Prod.fst far).symm⟩
      · exact ⟨link, inDeclared, Or.inl (congrArg Prod.fst far).symm⟩
    · rw [← sameName, sameChannel]
      exact joins
    · rw [sameWait]
      exact waits
  · rename_i differs
    rw [if_neg fun same => other same.1.symm] at member
    cases member

/-- When all instances that it waits for show that they are ready, the wait for the
connection of the peers ends. -/
theorem peersConnected_of_ready (assembly : Assembly links instances db)
    (observed : Observed instances db later) (described : Described links db (instances i) current)
    (ready : ∀ j, WaitsFor links db (instances i).fServiceName (instances j).fServiceName →
      get later (instances j).stateKey = some DeviceState.deviceReady.name) :
    current.peersConnected later = true := by
  have standard := described.standard (assembly.standard i)
  rw [peersConnected, Bool.or_eq_true]
  right
  apply List.any_eq_true.mpr
  refine ⟨DeviceState.deviceReady.name, List.mem_cons_self, List.all_eq_true.mpr ?_⟩
  intro state isState
  rcases List.mem_filterMap.mp isState with ⟨key, isKey, found⟩
  rcases List.mem_flatMap.mp isKey with ⟨service, isService, isKey⟩
  rcases waitsFor_of_mem_peerServiceKeys assembly described isService with
    ⟨peer, rfl, plain, part, isEnd, waits⟩
  rcases mem_stateKeys standard plain isKey with ⟨instanceId, rfl⟩
  have owner : ∃ j, (instances j).fServiceName = peer ∧
      (instances j).stateKey = instanceStateKey peer instanceId := by
    rcases observed.strings _ (Option.isSome_iff_exists.mpr ⟨state, found⟩) with
      ⟨j, isKey⟩ | isSome
    · rw [stateKey_eq (assembly.standard j)] at isKey
      have parts : peer ++ ':' :: (instanceId ++ ':' :: fairMQStatePrefix) =
          (instances j).fServiceName ++ ':' :: ((instances j).fId ++ ':' :: fairMQStatePrefix) := by
        simpa [instanceStateKey, colon] using isKey
      rcases Text.append_separator_inj part (assembly.name j).serviceName.part parts with
        ⟨service, -⟩
      exact ⟨j, service.symm, by rw [stateKey_eq (assembly.standard j), ← isKey]⟩
    · rcases assembly.states peer isEnd instanceId isSome with
        ⟨j, service, sameId⟩ | ⟨link, -, isLink⟩
      · exact ⟨j, service, by rw [stateKey_eq (assembly.standard j), service, sameId]⟩
      · have parts : peer ++ ':' :: (instanceId ++ ':' :: fairMQStatePrefix) =
            topologyPrefix ++ ':' :: (linkPrefix ++ ':' :: link.pairName) := by
          simpa [instanceStateKey, LinkKey.key, LinkKey.keyPrefix, colon] using isLink
        exact absurd (Text.append_separator_inj part (by decide) parts).1
          (assembly.unreservedEnd peer isEnd)
  rcases owner with ⟨j, rfl, same⟩
  rw [← same, ready j waits] at found
  cases found
  exact beq_self_eq_true _

/-- A held instance waits for one that is not at its end: for one that has still to mark
its channels and is free, or for one that its service waits for. -/
theorem exists_waited (assembly : Assembly links instances db) {network : Network ι Db Connector}
    (keeps : ∀ i, Keeps links instances db (instances i) network.shared (network.party i))
    (held : (network.party i).held network.shared = true) :
    ∃ j, (network.party j).Unfinished ∧ ((network.party j).held network.shared = true →
      WaitsFor links db (instances i).fServiceName (instances j).fServiceName) := by
  have placed := (keeps i).placed
  generalize network.party i = inst at held placed
  rcases inst with ⟨current, stage⟩
  cases stage with
  | waitingBind channels =>
      cases channels with
      | nil => cases held
      | cons channel rest =>
          have notBound : isBound network.shared channel = false := by
            simpa [Connector.held] using held
          rcases placed.2 channel List.mem_cons_self with ⟨j, name, base, rfl, declares, isBind⟩
          have free : (network.party j).Unfinished ∧
              (network.party j).held network.shared = false := by
            cases written : (network.party j).bindWritten with
            | false => exact free_of_not_bindWritten written
            | true =>
                have described := (keeps j).placed.described written
                rcases (keeps j).marks written name (described.complete name base declares isBind)
                  with marked | member
                · rw [notBound] at marked
                  cases marked
                · exact free_of_mem_commands member
          refine ⟨j, free.1, fun heldJ => ?_⟩
          rw [free.2] at heldJ
          cases heldJ
  | waitingPeers services found =>
      have notConnected : current.peersConnected network.shared = false := by
        simpa [Connector.held] using held
      by_contra none
      have finished (j : ι)
          (waits : WaitsFor links db (instances i).fServiceName (instances j).fServiceName) :
          (network.party j).stage = .deviceReady := by
        by_contra unfinished
        exact none ⟨j, unfinished, fun _ => waits⟩
      have connected := peersConnected_of_ready assembly (keeps i).observed placed
        fun j waits => (keeps j).ready (finished j waits)
      rw [notConnected] at connected
      cases connected
  | _ => cases held

end Held

/-! ## Who is free -/

section Free

variable {current : TopologyConfig} {inst : Connector}

/-- A round of `WaitForPeerConnection` on one registry. -/
theorem run_round (current : TopologyConfig) (later : Db) (services found : List Text) :
    Transition.run (Connector.step order) (later, ⟨current, .waitingPeers services found⟩)
        (List.replicate services.length .proceed) =
      some (later, ⟨current, .waitingPeers []
        (found ++ services.flatMap (current.stateKeys later))⟩) := by
  induction services generalizing found with
  | nil => simp
  | cons service rest ih =>
      rw [List.length_cons, List.replicate_succ, run_cons_eq_some_iff]
      apply Exists.intro (later, ⟨current, .waitingPeers rest
        (found ++ current.stateKeys later service)⟩)
      constructor
      · rfl
      · rw [ih, List.flatMap_cons, List.append_assoc]

/-- The order in which the services are scanned does not matter. -/
theorem round_done (perm : ∀ keys, (order keys).Perm keys.dedup)
    (connected : current.peersConnected later = true) :
    (((order current.peerServiceKeys).flatMap (current.stateKeys later)).isEmpty ||
      statesDone (((order current.peerServiceKeys).flatMap (current.stateKeys later)).filterMap
        (Store.get later))) = true := by
  have same (key : Text) : key ∈ (order current.peerServiceKeys).flatMap (current.stateKeys later) ↔
      key ∈ current.peerServiceKeys.flatMap (current.stateKeys later) := by
    simp only [List.mem_flatMap, (perm _).mem_iff, List.mem_dedup]
  rw [peersConnected, Bool.or_eq_true, List.isEmpty_iff, statesDone, List.any_eq_true] at connected
  rw [Bool.or_eq_true, List.isEmpty_iff, statesDone, List.any_eq_true]
  rcases connected with empty | ⟨target, member, all⟩
  · left
    apply List.eq_nil_iff_forall_not_mem.mpr
    intro key isKey
    rw [same, empty] at isKey
    cases isKey
  · right
    refine ⟨target, member, List.all_eq_true.mpr ?_⟩
    intro state isState
    rcases List.mem_filterMap.mp isState with ⟨key, isKey, found⟩
    exact List.all_eq_true.mp all state (List.mem_filterMap.mpr ⟨key, (same key).mp isKey, found⟩)

/-- An instance that is not held comes closer to its end by itself. -/
theorem advances_of_free (perm : ∀ keys, (order keys).Perm keys.dedup)
    (unfinished : inst.Unfinished) (free : inst.held later = false) :
    Network.Advances (Connector.step order)
      (fun inst : Connector => inst.stage.rest) later inst := by
  rcases inst with ⟨current, stage⟩
  have single {action : ConnectAction} {result : Db × Connector}
      (stepped : Connector.step order (later, ⟨current, stage⟩) action = some result)
      (less : result.2.stage.rest < stage.rest) :
      Network.Advances (Connector.step order) (fun inst : Connector => inst.stage.rest) later
        ⟨current, stage⟩ :=
    ⟨[action], result, (run_cons_eq_some_iff _ _ _ _ _).mpr ⟨result, stepped, rfl⟩, less⟩
  cases stage with
  | idle | initializingDevice | initialized | binding | left | connecting =>
      exact @single .proceed _ rfl (Prod.Lex.left _ _ (by decide))
  | publishing commands | marking commands | announcing commands =>
      cases commands with
      | nil => exact @single .proceed _ rfl (Prod.Lex.left _ _ (by decide))
      | cons command rest =>
          exact @single .proceed _ rfl (Prod.Lex.right _ (Nat.lt_succ_self _))
  | bound | resolved =>
      exact @single (.writeAddress ∅) _ rfl (Prod.Lex.left _ _ (by decide))
  | waitingBind channels =>
      cases channels with
      | nil => exact @single (.resolve ∅ true) _ rfl (Prod.Lex.left _ _ (by decide))
      | cons channel rest =>
          have bound : isBound later channel = true := by
            simpa [Connector.held] using free
          have stepped : Connector.step order (later, ⟨current, .waitingBind (channel :: rest)⟩)
              .proceed = some (later, ⟨current, .waitingBind rest⟩) := by
            simp only [Connector.step, Connector.proceed, bound, if_true]
            rfl
          exact single stepped (Prod.Lex.right _ (Nat.lt_succ_self _))
  | waitingPeers services found =>
      have connected : current.peersConnected later = true := by
        simpa [Connector.held] using free
      have done := round_done perm connected
      have finished {found : List Text}
          (ends : (found.isEmpty || statesDone (found.filterMap (Store.get later))) = true) :
          Connector.step order (later, ⟨current, .waitingPeers [] found⟩) .proceed =
            some (later, ⟨current, .left⟩) := by
        simp only [Connector.step, Connector.proceed, ends, if_true]
        rfl
      have less : Stage.left.rest < (Stage.waitingPeers services found).rest :=
        Prod.Lex.left _ _ (by decide)
      -- The round that is under way may still fail with states read before; the next one
      -- reads this registry only.
      cases now : (found ++ services.flatMap (current.stateKeys later)).isEmpty ||
          statesDone ((found ++ services.flatMap (current.stateKeys later)).filterMap
            (Store.get later)) with
      | true =>
          refine ⟨List.replicate services.length .proceed ++ [.proceed], (later, ⟨current, .left⟩),
            ?_, less⟩
          rw [run_append, run_round, Option.bind_some, run_cons_eq_some_iff]
          exact ⟨_, finished now, rfl⟩
      | false =>
          have again : Connector.step order (later, ⟨current, .waitingPeers []
              (found ++ services.flatMap (current.stateKeys later))⟩) .proceed =
                some (later, ⟨current, .waitingPeers (order current.peerServiceKeys) []⟩) := by
            simp only [Connector.step, Connector.proceed, now]
            rfl
          refine ⟨List.replicate services.length .proceed ++ (.proceed ::
            (List.replicate (order current.peerServiceKeys).length .proceed ++ [.proceed])),
            (later, ⟨current, .left⟩), ?_, less⟩
          rw [run_append, run_round, Option.bind_some, run_cons_eq_some_iff]
          apply Exists.intro _
          apply And.intro again
          rw [run_append, run_round, Option.bind_some, List.nil_append, run_cons_eq_some_iff]
          exact ⟨_, finished done, rfl⟩
  | deviceReady => exact absurd rfl unfinished

end Free

section Progress

variable [Finite ι] [DecidableEq ι] (assembly : Assembly links instances db)
  (acyclic : ∀ service, ¬ Relation.TransGen (WaitsFor links db) service service)
  (perm : ∀ keys, (order keys).Perm keys.dedup)

include assembly acyclic perm

/-- In every reachable state in which some instance has not reached `DeviceReady`, some
such instance is not held by a wait loop, and comes closer to `DeviceReady` by itself. -/
theorem exists_free_connector {actions : List (ι × ConnectAction)}
    {network : Network ι Db Connector}
    (reached : Transition.run (Network.step (Connector.step order)) (beforeConnect instances db)
      actions = some network) {i : ι} (unfinished : (network.party i).Unfinished) :
    ∃ j, (network.party j).Unfinished ∧ (network.party j).held network.shared = false ∧
      Network.Advances (Connector.step order) (fun inst : Connector => inst.stage.rest)
        network.shared (network.party j) := by
  have keeps := Keeps.run assembly perm (keeps_beforeConnect instances db) reached
  have acyclicInstances (i : ι) : ¬ Relation.TransGen (fun i j : ι =>
      WaitsFor links db (instances i).fServiceName (instances j).fServiceName) i i :=
    fun cycle => acyclic _ (cycle.lift (fun i => (instances i).fServiceName) fun _ _ waits => waits)
  rcases @Network.exists_free ι _ _ acyclicInstances (fun i => (network.party i).Unfinished)
      (fun i => (network.party i).held network.shared = true)
      (fun _ held => exists_waited assembly keeps held) i unfinished with ⟨j, unfinishedJ, notHeld⟩
  have free : (network.party j).held network.shared = false := Bool.eq_false_iff.mpr notHeld
  exact ⟨j, unfinishedJ, free, advances_of_free perm unfinishedJ free⟩

/-- So every reachable state leads to one in which all instances have reached
`DeviceReady`. -/
theorem exists_all_ready {actions : List (ι × ConnectAction)} {network : Network ι Db Connector}
    (reached : Transition.run (Network.step (Connector.step order)) (beforeConnect instances db)
      actions = some network) :
    ∃ later last, Transition.run (Network.step (Connector.step order)) network later = some last ∧
      ∀ i, (last.party i).stage = .deviceReady := by
  let good (network : Network ι Db Connector) : Prop := ∃ actions, Transition.run
    (Network.step (Connector.step order)) (beforeConnect instances db) actions = some network
  rcases @Network.exists_completion _ _ _ _ _ _ _ _ _ (Connector.step order)
      (fun inst : Connector => inst.stage.rest) good Connector.Unfinished
      (by
        rintro network last actions ⟨before, reached⟩ ran
        apply Exists.intro (before ++ actions)
        rw [run_append, reached]
        exact ran)
      (by
        rintro network i ⟨before, reached⟩ unfinished
        rcases exists_free_connector assembly acyclic perm reached unfinished with
          ⟨j, -, -, advances⟩
        exact ⟨j, advances⟩)
      network ⟨actions, reached⟩ with ⟨later, last, ran, -, finished⟩
  exact ⟨later, last, ran, fun i => not_not.mp (finished i)⟩

end Progress

/-! ## A source that waits for its sink -/

/-- A name that the registry gives to its own keys is taken: by no one, by the channel
of the source, or by the service of the sink and its channel. -/
inductive Taken where
  | none
  | channel
  | service
  deriving DecidableEq

/-- The service of the sink. -/
def knotSink : Taken → Text
  | .service => topologyPrefix
  | _ => "Snk".toList

/-- The source and the sink. -/
def knot (taken : Taken) : Bool → TopologyConfig
  | false => { fTopPrefix := topPrefix, fServiceName := "Src".toList, fId := "Src-0".toList }
  | true => { fTopPrefix := topPrefix, fServiceName := knotSink taken,
              fId := knotSink taken ++ "-0".toList }

/-- Their link. -/
def knotLink (taken : Taken) : LinkKey where
  serviceL := "Src".toList
  channelL := if taken = .channel then presencePrefix else "out".toList
  serviceR := knotSink taken
  channelR := if taken = .service then fairMQStatePrefix else "in".toList

/-- A registry with a bind endpoint of the source that waits for its peers, a connect
endpoint of the sink, their link, and both instances. -/
def knotRegistry (taken : Taken) : Db :=
  let link := knotLink taken
  let bindEnd := hset ∅ (serviceEndpointKey link.serviceL link.channelL)
    [(Field.text .method, "bind".toList), (Field.text .waitForPeerConnection, ['1'])]
  let ends := hset bindEnd (serviceEndpointKey link.serviceR link.channelR)
    [(Field.text .method, "connect".toList)]
  set (set (set ends link.key []) (presenceKey link.serviceL "Src-0".toList) [])
    (presenceKey link.serviceR (link.serviceR ++ "-0".toList)) []

/-- A number of steps of one of the two. -/
def knotSteps (sink : Bool) (steps : Nat) : List (Bool × ConnectAction) :=
  List.replicate steps (sink, .proceed)

/-- The source goes on until it waits for the state of the sink. -/
def sourceSteps : List (Bool × ConnectAction) :=
  knotSteps false 9 ++ [(false, .writeAddress ∅)] ++ knotSteps false 2 ++
    [(false, .resolve ∅ false), (false, .writeAddress ∅), (false, .proceed)]

/-- The sink goes on until it waits for the channels of the source. -/
def sinkSteps : List (Bool × ConnectAction) :=
  knotSteps true 9 ++ [(true, .writeAddress ∅)] ++ knotSteps true 2

/-- Where the two are after some steps. -/
def knotView (taken : Taken) (actions : List (Bool × ConnectAction)) :
    Option (Bool × DeviceState × Bool) :=
  (Transition.run (Network.step (Connector.step (List.dedup ·)))
    (beforeConnect (knot taken) (knotRegistry taken)) actions).map fun network =>
      ((network.party false).held network.shared, (network.party true).stage.deviceState,
        (network.party true).held network.shared)

/-- What the registry of the source and the sink needs is checked on its keys. -/
theorem site_of_keys {taken : Taken} {db : Db} {wait : Bool}
    (declared : (get db (knotLink taken).key).isSome)
    (links : ∀ key ∈ db.keys, LinkKey.keyPrefix <+: key → key ∈ [knotLink taken].map LinkKey.key)
    (bindEnd : DeclaresEndpoint db (knotLink taken).serviceL (knotLink taken).channelL
      { method := "bind".toList, waitForPeerConnection := wait })
    (connectEnd : DeclaresEndpoint db (knotLink taken).serviceR (knotLink taken).channelR
      { method := "connect".toList })
    (names : ∀ i, ∀ key ∈ db.keys, serviceEndpointKey (knot taken i).fServiceName [] <+: key →
      Name (key.drop (serviceEndpointKey (knot taken i).fServiceName []).length))
    (readable : ∀ i, ∀ key ∈ db.keys, serviceEndpointKey (knot taken i).fServiceName [] <+: key →
      (toSocketProperty (hgetall db key)).isSome)
    (present : ∀ i, presenceKey (knot taken i).fServiceName (knot taken i).fId ∈ db)
    (only : ∀ i, ∀ key ∈ db.keys,
      Glob.stringmatch (presenceKey (knot taken i).fServiceName ['*']) key →
        key ∈ [(knot taken i).fId].map (presenceKey (knot taken i).fServiceName))
    (states : ∀ key ∈ db.keys, ':' :: fairMQStatePrefix <:+ key → (get db key).isSome →
      key = (knotLink taken).key) :
    Site [knotLink taken] (knot taken) db where
  standard := by rintro (_ | _) <;> exact ⟨rfl, rfl⟩
  name := by
    cases taken <;> rintro (_ | _) <;> exact ⟨by decide, by decide, by decide, by decide⟩
  noBind := by rintro (_ | _) <;> rfl
  noConnect := by rintro (_ | _) <;> rfl
  noLinks := by rintro (_ | _) <;> rfl
  distinct := by cases taken <;> decide
  declares := declares_of_keys (by cases taken <;> decide) (by simpa using declared) links
  noSelf := by cases taken <;> decide
  noPrefix := by cases taken <;> decide
  endpoints := by
    intro link member
    cases List.mem_singleton.mp member
    exact ⟨_, _, _, _, Or.inl ⟨rfl, rfl⟩, ⟨bindEnd, rfl, trivial⟩, connectEnd, rfl, trivial⟩
  names := by
    intro i channel stored
    rw [serviceEndpointKey_append] at stored
    exact name_of_keys (names i) stored
  readable := fun i channel stored => exists_declaresEndpoint_of_keys (readable i) stored
  options := by rintro (_ | _) child member <;> cases member
  present := by
    intro service isEnd instanceId
    have known : ∃ i, (knot taken i).fServiceName = service := by
      rcases isEnd with ⟨link, member, rfl | rfl⟩ <;> cases List.mem_singleton.mp member
      · exact ⟨false, rfl⟩
      · exact ⟨true, rfl⟩
    rcases known with ⟨i, rfl⟩
    have plain : ∀ i, Glob.Plain (knot taken i).fServiceName := by
      cases taken <;> decide
    constructor
    · intro member
      exact ⟨i, rfl, (List.mem_singleton.mp (instanceId_of_keys (plain i) (only i) member)).symm⟩
    · rintro ⟨j, service, rfl⟩
      rw [← service]
      exact present j
  states := by
    intro service isEnd instanceId isSome
    have member : instanceStateKey service instanceId ∈ db := by
      by_contra absent
      rw [Store.get, AList.lookup_eq_none.mpr absent] at isSome
      cases isSome
    have isSuffix : ':' :: fairMQStatePrefix <:+ instanceStateKey service instanceId :=
      ⟨topPrefix ++ ':' :: (service ++ ':' :: instanceId), by simp [instanceStateKey, colon]⟩
    exact Or.inr ⟨_, List.mem_cons_self, states _ (AList.mem_keys.mp member) isSuffix isSome⟩

theorem knot_site (taken : Taken) :
    Site [knotLink taken] (knot taken) (knotRegistry taken) := by
  apply @site_of_keys taken _ true
  case bindEnd => exact ⟨by cases taken <;> decide +kernel, by cases taken <;> decide +kernel⟩
  case connectEnd => exact ⟨by cases taken <;> decide +kernel, by cases taken <;> decide +kernel⟩
  all_goals cases taken <;> decide +kernel

/-- When no name of the registry is taken, nothing else is to be checked. -/
theorem assembly_of_site {db : Db} (site : Site [knotLink .none] (knot .none) db)
    (unreserved : ∀ i, serviceEndpointKey (knot .none i).fServiceName presencePrefix ∉ db) :
    Assembly [knotLink .none] (knot .none) db := {
  site with
  unreservedService := by rintro (_ | _) <;> decide
  unreservedEnd := by
    rintro service ⟨link, member, rfl | rfl⟩ <;> cases List.mem_singleton.mp member <;> decide
  unreservedChannel := unreserved }

/-- Only the source waits for a service. -/
theorem knot_acyclic (taken : Taken) (service : Text) :
    ¬ Relation.TransGen (WaitsFor [knotLink taken] (knotRegistry taken)) service service := by
  have waits {first second : Text}
      (edge : WaitsFor [knotLink taken] (knotRegistry taken) first second) :
      first = "Src".toList ∧ second = knotSink taken := by
    rcases edge with ⟨link, member, channel, far, base, joins, declares, isBind, -⟩
    cases List.mem_singleton.mp member
    rcases joins with ⟨near, farEq⟩ | ⟨near, farEq⟩
    · exact ⟨congrArg Prod.fst near, congrArg Prod.fst farEq⟩
    · cases near
      have read : toSocketProperty (hgetall (knotRegistry taken)
          (serviceEndpointKey (knotLink taken).serviceR (knotLink taken).channelR)) =
          some { method := "connect".toList } := by
        cases taken <;> decide +kernel
      cases declares.read.symm.trans read
      exact absurd isBind (by decide)
  have differs : knotSink taken ≠ "Src".toList := by cases taken <;> decide
  intro cycle
  rcases Relation.TransGen.head'_iff.mp cycle with ⟨middle, first, -⟩
  rcases Relation.TransGen.tail'_iff.mp cycle with ⟨middle, -, last⟩
  exact differs ((waits last).2.symm.trans (waits first).1)

/-- Some run leads to a state in which not all have reached `DeviceReady`, and those
that have not are held. -/
def CanBeHeld (order : List Text → List Text) (instances : ι → TopologyConfig) [DecidableEq ι]
    (db : Db) : Prop :=
  ∃ actions network, Transition.run (Network.step (Connector.step order))
    (beforeConnect instances db) actions = some network ∧
      (∃ i, (network.party i).Unfinished) ∧
      ∀ i, (network.party i).Unfinished → (network.party i).held network.shared = true

theorem knot_canBeHeld {taken : Taken} {actions : List (Bool × ConnectAction)}
    {state : DeviceState} {held : Bool} (view : knotView taken actions = some (true, state, held))
    (sink : held = true ∨ state = .deviceReady) :
    CanBeHeld (List.dedup ·) (knot taken) (knotRegistry taken) := by
  rcases Option.map_eq_some_iff.mp view with ⟨network, reached, same⟩
  simp only [Prod.mk.injEq] at same
  rcases same with ⟨sourceHeld, sinkState, sinkHeld⟩
  refine ⟨actions, network, reached, ⟨false, fun ready => ?_⟩, ?_⟩
  · rw [Connector.held, ready] at sourceHeld
    cases sourceHeld
  · rintro (_ | _) unfinished
    · exact sourceHeld
    · rcases sink with isHeld | ready
      · rw [sinkHeld, isHeld]
      · exfalso
        apply unfinished
        rw [ready] at sinkState
        generalize (network.party true).stage = stage at sinkState ⊢
        cases stage <;> first | rfl | cases sinkState

/-- A sink waits for ever for a channel that a source with a channel called `presence`
does not have. And a source waits for ever for the state of a service called
`topology` when it takes a declared link for one. -/
theorem taken_canBeHeld :
    (Site [knotLink .channel] (knot .channel) (knotRegistry .channel) ∧
      (∀ service, ¬ Relation.TransGen (WaitsFor [knotLink .channel] (knotRegistry .channel))
        service service) ∧
      CanBeHeld (List.dedup ·) (knot .channel) (knotRegistry .channel)) ∧
    (Site [knotLink .service] (knot .service) (knotRegistry .service) ∧
      (∀ service, ¬ Relation.TransGen (WaitsFor [knotLink .service] (knotRegistry .service))
        service service) ∧
      CanBeHeld (List.dedup ·) (knot .service) (knotRegistry .service)) := by
  have channel : knotView .channel (sourceSteps ++ sinkSteps) = some (true, .bound, true) := by
    decide +kernel
  have service : knotView .service (sourceSteps ++ sinkSteps ++ [(true, .resolve ∅ false),
      (true, .writeAddress ∅)] ++ knotSteps true 4) = some (true, .deviceReady, false) := by
    decide +kernel
  exact ⟨⟨knot_site .channel, knot_acyclic .channel, knot_canBeHeld channel (Or.inl rfl)⟩,
    knot_site .service, knot_acyclic .service, knot_canBeHeld service (Or.inr rfl)⟩

/-- With other names, the sink is free while the source waits for it. -/
theorem knot_exists_free_connector : ∃ network,
    Transition.run (Network.step (Connector.step (List.dedup ·)))
        (beforeConnect (knot .none) (knotRegistry .none)) (sourceSteps ++ knotSteps true 1) =
      some network ∧ (network.party false).held network.shared = true ∧
      ∃ j, (network.party j).Unfinished ∧ (network.party j).held network.shared = false ∧
        Network.Advances (Connector.step (List.dedup ·)) (fun inst : Connector => inst.stage.rest)
          network.shared (network.party j) := by
  have view : knotView .none (sourceSteps ++ knotSteps true 1) =
      some (true, .initializingDevice, false) := by
    decide +kernel
  rcases Option.map_eq_some_iff.mp view with ⟨network, reached, same⟩
  simp only [Prod.mk.injEq] at same
  have unfinished : (network.party false).Unfinished := by
    intro ready
    rw [Connector.held, ready] at same
    cases same.1
  have assembly := assembly_of_site (knot_site .none) (by decide +kernel)
  exact ⟨network, reached, same.1, exists_free_connector assembly (knot_acyclic .none)
    (fun keys => List.Perm.refl _) reached unfinished⟩

end NestDaq.Topology
