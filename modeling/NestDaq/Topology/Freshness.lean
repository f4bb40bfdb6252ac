import NestDaq.Topology.Progress
import NestDaq.Topology.Rounds

/-!
# Fresh addresses

A bind instance and a connect instance that a link joins go through their cycles at
their own pace. Nothing in the registry names a cycle: the mark of a channel and the
hashes of its sub-sockets stay there until the bind instance itself resets. The
connect instance gets the addresses of the current cycle as long as it never resolves
them before the bind instance has reset as often as itself.
-/

namespace NestDaq.Topology

open NestDaq.Registry
open NestDaq.Store
open NestDaq.Transition
open Instance
open TopologyConfig

variable {ι : Type} {links : List LinkKey} {instances : ι → TopologyConfig} {db later : Db}
  {config : TopologyConfig}

/-! ## Resolution of one peer -/

theorem exists_of_mem_mapM_ok {α β : Type} {f : α → Except Fault β} {items : List α}
    {results : List β} (ok : items.mapM f = .ok results) {result : β} (member : result ∈ results) :
    ∃ item ∈ items, f item = .ok result := by
  induction items generalizing results with
  | nil =>
      cases ok
      cases member
  | cons item rest ih =>
      rw [List.mapM_cons] at ok
      cases here : f item with
      | error fault =>
          rw [here] at ok
          cases ok
      | ok first =>
          cases others : rest.mapM f with
          | error fault =>
              rw [here, others] at ok
              cases ok
          | ok more =>
              rw [here, others] at ok
              cases ok
              rcases List.mem_cons.mp member with rfl | inRest
              · exact ⟨item, List.mem_cons_self, here⟩
              · rcases ih others inRest with ⟨other, inItems, same⟩
                exact ⟨other, List.mem_cons_of_mem _ inItems, same⟩

namespace TopologyConfig

variable {sp res last : SocketProperty} {me : Text} {size : Nat}

/-- What is done with an element of the address vector. -/
theorem exists_of_element_bind {addresses : List Text} {index : Nat}
    {next : Text → Except Fault SocketProperty}
    (resolved : (element addresses index >>= next) = .ok last) :
    ∃ address ∈ addresses, next address = .ok last := by
  rw [element] at resolved
  split at resolved
  · rename_i address found
    exact ⟨address, List.mem_of_getElem? found, resolved⟩
  · cases resolved

/-- What a peer gives: nothing, when it is passed over as one of several, or one of its
addresses, which takes the place of the address found so far or is appended to it. -/
theorem resolvePeers_cons_ok {peer : Text} {rest : List Text} {peerIndex : Nat} {is1to1 : Bool}
    (resolved : config.resolvePeers db sp me size (peer :: rest) res peerIndex is1to1 = .ok last) :
    ((is1to1 = true ∨ size ≠ 1) ∧ ∃ flag,
        config.resolvePeers db sp me size rest res (peerIndex + 1) flag = .ok last) ∨
      ∃ addresses address found, config.peerAddress db peer = .ok addresses ∧
        address ∈ addresses ∧
        (found = { res with address := address } ∨ found = appendAddress res address) ∧
        (last = found ∨ ∃ flag,
          config.resolvePeers db sp me size rest found (peerIndex + 1) flag = .ok last) := by
  simp only [resolvePeers] at resolved
  split at resolved
  · rename_i passed
    exact Or.inl ⟨Or.inl passed.1, _, resolved⟩
  split at resolved
  · cases resolved
  cases addressed : config.peerAddress db peer with
  | error fault =>
      rw [addressed] at resolved
      cases resolved
  | ok addresses =>
      rw [addressed] at resolved
      simp only [ok_bind] at resolved
      split at resolved
      · split at resolved
        · rcases exists_of_element_bind resolved with ⟨address, member, equal⟩
          cases equal
          exact Or.inr ⟨addresses, address, _, rfl, member, Or.inl rfl, Or.inl rfl⟩
        · rename_i several
          exact Or.inl ⟨Or.inr fun one => several (Or.inr one), _, resolved⟩
      split at resolved
      · -- 1:m
        rcases exists_of_element_bind resolved with ⟨address, member, later⟩
        exact Or.inr ⟨addresses, address, _, rfl, member, Or.inl rfl, Or.inr ⟨_, later⟩⟩
      · split at resolved
        all_goals
          -- n:1 and n:m
          split at resolved
          · rcases exists_of_element_bind resolved with ⟨address, member, later⟩
            exact Or.inr ⟨addresses, address, _, rfl, member, Or.inr rfl, Or.inr ⟨_, later⟩⟩
          · cases resolved

/-- Resolving keeps the name of a channel. -/
theorem resolvePeers_name {peers : List Text} {peerIndex : Nat} {is1to1 : Bool}
    (resolved : config.resolvePeers db sp me size peers res peerIndex is1to1 = .ok last) :
    last.name = res.name := by
  induction peers generalizing res peerIndex is1to1 with
  | nil =>
      cases resolved
      rfl
  | cons peer rest ih =>
      rcases resolvePeers_cons_ok resolved with
        ⟨-, flag, later⟩ | ⟨addresses, address, found, -, -, foundEq, equal⟩
      · exact ih later
      · have sameName : found.name = res.name := by
          rcases foundEq with rfl | rfl <;> rfl
        rcases equal with rfl | ⟨flag, later⟩
        · exact sameName
        · exact (ih later).trans sameName

/-- A channel with one peer gets one of its addresses. -/
theorem resolvePeers_one {peer : Text}
    (resolved : config.resolvePeers db sp me 1 [peer] res 0 false = .ok last) :
    ∃ addresses address, config.peerAddress db peer = .ok addresses ∧ address ∈ addresses ∧
      (last = { res with address := address } ∨ last = appendAddress res address) := by
  rcases resolvePeers_cons_ok resolved with
    ⟨several, -⟩ | ⟨addresses, address, found, addressed, member, foundEq, equal⟩
  · rcases several with flag | size
    · cases flag
    · exact absurd rfl size
  · refine ⟨addresses, address, addressed, member, ?_⟩
    rcases equal with rfl | ⟨flag, done⟩
    · exact foundEq
    · cases done
      exact foundEq

/-- When every sub-socket of a peer has an address that was published, what
`ReadPeerAddress` gives is made of these. -/
theorem readSubSockets_made {published : List (Text × Text)} {keys addresses : List Text}
    {peerIP : Option Text} {time later : Nat}
    (each : ∀ key ∈ keys, ∃ text, (key, text) ∈ published ∧
      hget db key (Field.text .address) = some text)
    (read : config.readSubSockets (fun _ => ⟨db, false⟩) peerIP keys time = .ok (addresses, later))
    {address : Text} (member : address ∈ addresses) :
    ∃ entry ∈ published, entry.1 ∈ keys ∧
      ∃ ip, peerIP = some ip ∧ address = makeAddress entry.2 ip := by
  induction keys generalizing addresses time with
  | nil =>
      cases read
      cases member
  | cons key rest ih =>
      rcases each key List.mem_cons_self with ⟨text, isText, found⟩
      have polled : pollAddress (fun _ => ⟨db, false⟩) key config.attempts time =
          (some text, time + 1) := by
        rw [attempts, pollAddress, found]
      cases peerIP with
      | none =>
          simp only [readSubSockets, polled] at read
          cases read
      | some ip =>
          simp only [readSubSockets, polled] at read
          cases others : config.readSubSockets (fun _ => ⟨db, false⟩) (some ip) rest (time + 1) with
          | error fault =>
              rw [others] at read
              cases read
          | ok more =>
              rw [others] at read
              cases read
              rcases List.mem_cons.mp member with rfl | inRest
              · exact ⟨(key, text), isText, List.mem_cons_self, ip, rfl, rfl⟩
              · rcases ih (fun other inKeys => each other (List.mem_cons_of_mem _ inKeys)) others
                  inRest with ⟨entry, isEntry, inKeys, made⟩
                exact ⟨entry, isEntry, List.mem_cons_of_mem _ inKeys, made⟩

end TopologyConfig

/-- A channel that is resolved has no address yet. -/
theorem empty_or_unspecified_of_not_hasAddress {sp : SocketProperty}
    (none : (!hasAddress sp) = true) :
    sp.address = [] ∨ sp.address = "unspecified".toList := by
  by_contra neither
  rw [not_or] at neither
  rw [hasAddress, decide_eq_true neither.1, decide_eq_true neither.2] at none
  cases none

/-- The registry holds an address for every sub-socket of a channel, one that was
published. -/
def Carries (config : TopologyConfig) (channel : Text) (db : Db) (published : List (Text × Text)) :
    Prop :=
  ∀ key ∈ db, socketKeyPrefix config.fServiceName config.fId channel <+: key →
    ∃ text, (key, text) ∈ published ∧ hget db key (Field.text .address) = some text

/-- An address found after a pipeline was written by it, or was there. -/
theorem mem_writtenAddresses (db : Db) {commands : List Command} {key text : Text}
    (found : hget (execAll db commands) key (Field.text .address) = some text) :
    (key, text) ∈ writtenAddresses commands ∨
      hget db key (Field.text .address) = some text := by
  induction commands generalizing db with
  | nil => exact Or.inr found
  | cons command rest ih =>
      have split : writtenAddresses (command :: rest) =
          writtenAddresses [command] ++ writtenAddresses rest := by
        rw [writtenAddresses, List.flatMap_cons]
        simp [writtenAddresses]
      rw [split, List.mem_append]
      rcases ih (command.exec db) found with later | here
      · exact Or.inl (Or.inr later)
      · by_cases same : key = command.key
        · subst same
          cases command with
          | expire other => exact Or.inr here
          | rpush other items =>
              rw [hget, hgetall, Command.exec, rpush, Command.key, AList.lookup_insert] at here
              cases here
          | hset other fields =>
              rw [Command.exec, Command.key, hget_hset] at here
              rcases mem_or_lookup_of_lookup_setFields here with written | before
              · left
                left
                simp [writtenAddresses, written, Command.key]
              · exact Or.inr before
        · rw [hget_congr (command.lookup_exec_of_ne db same)] at here
          exact Or.inr here

variable {channel : Text}

theorem Carries.congr {published : List (Text × Text)}
    (carries : Carries config channel later published)
    {after : Db} (same : ∀ key, area config.fServiceName config.fId socketPrefix <+: key →
      after.lookup key = later.lookup key) : Carries config channel after published := by
  intro key member isPrefix
  have sameHere := same key (socketKeyPrefix_area.trans isPrefix)
  rcases carries key ((mem_of_lookup_eq sameHere).mp member) isPrefix with ⟨text, isText, found⟩
  exact ⟨text, isText, (hget_congr sameHere _).trans found⟩

/-- `WriteAddress` for channels whose sub-sockets all have addresses. -/
theorem Sound.carries_writeAddress {party : Party} (sound : Sound links config db later party)
    (standard : config.Standard) (carries : Carries config channel later party.published)
    {properties : Properties} {channels : MQChannel} {f : Text → List Command}
    (shows_ : ShowsAddresses properties channels)
    (marks : ∀ name, ∀ command ∈ f name,
      ∃ fields, command = .hset (party.config.channelKey name) fields) :
    Carries config channel (execAll later (party.config.writeAddress properties channels f))
      (party.published ++ writtenAddresses (party.config.writeAddress properties channels f)) := by
  rcases sound.sameKeys with ⟨sameService, sameId, partyStandard⟩
  intro key member isPrefix
  have noPush (key : Text) (items : List Text) :
      Command.rpush key items ∉ party.config.writeAddress properties channels f := by
    intro pushed
    rcases List.mem_flatMap.mp pushed with ⟨entry, -, pushed⟩
    rcases List.mem_append.mp pushed with inSockets | inMarks
    · rcases List.mem_flatMap.mp inSockets with ⟨index, -, written⟩
      simp [writeSubSocket] at written
    · rcases marks entry.1 _ inMarks with ⟨fields, equal⟩
      cases equal
  have isSome : (hget (execAll later (party.config.writeAddress properties channels f)) key
      (Field.text .address)).isSome := by
    rcases mem_or_created_of_mem_execAll later member with before | new
    · rcases carries key before isPrefix with ⟨text, -, found⟩
      exact isSome_hget_execAll later _ (noPush key) (Option.isSome_iff_exists.mpr ⟨text, found⟩)
    rcases (createdKeys_writeAddress party.config _ _ _ key).mp new with address | ⟨name, -, mark⟩
    · rcases List.mem_flatMap.mp address with ⟨entry, inChannels, address⟩
      rcases List.mem_map.mp address with ⟨index, below, rfl⟩
      rcases address_mem_writeSubSocket (shows_ entry inChannels index (List.mem_range.mp below))
        with ⟨fields, written, hasAddress⟩
      have inCommands : Command.hset (party.config.socketKey entry.2.name index) fields ∈
          party.config.writeAddress properties channels f :=
        List.mem_flatMap.mpr ⟨entry, inChannels,
          List.mem_append_left _ (List.mem_flatMap.mpr ⟨index, below, written⟩)⟩
      exact isSome_hget_of_mem later inCommands hasAddress (noPush _)
    · rcases exists_of_mem_createdKeys mark with ⟨command, inMarks, rfl⟩
      rcases marks name command inMarks with ⟨fields, rfl⟩
      have inSockets := socketKeyPrefix_area.trans isPrefix
      rw [Command.key, channelKey_eq (partyStandard standard), sameService, sameId] at inSockets
      exact absurd inSockets (not_area_socket (area_prefix_instanceChannelKey _ _ _))
  rcases Option.isSome_iff_exists.mp isSome with ⟨text, found⟩
  refine ⟨text, ?_, found⟩
  rcases mem_writtenAddresses later found with isWritten | before
  · exact List.mem_append_right _ isWritten
  · by_cases stored : key ∈ later
    · rcases carries key stored isPrefix with ⟨same, isText, sameFound⟩
      cases before.symm.trans sameFound
      exact List.mem_append_left _ isText
    · rw [hget, hgetall, AList.lookup_eq_none.mpr stored] at before
      cases before

/-! ## Two instances -/

/-- A bind instance and a connect instance: the link joins the channel of the latter to
a channel of the former, no other link joins it to anything else, and the bind
instance is the only one of its service. -/
structure Couple (links : List LinkKey) (instances : ι → TopologyConfig) (db : Db)
    (binder connector : ι) (bindChannel connectChannel : Text) : Prop
    extends Ready links instances db where
  joins : ∀ far, (∃ link ∈ links,
    link.Joins ((instances connector).fServiceName, connectChannel) far) ↔
      far = ((instances binder).fServiceName, bindChannel)
  only : ∀ i, (instances i).fServiceName = (instances binder).fServiceName → i = binder

/-- In a cycle, the peer of the connect channel is the bind channel. -/
def Listed (instances : ι → TopologyConfig) (binder connector : ι)
    (bindChannel connectChannel : Text) (later : Db) (party : Party) : Prop :=
  party.phase ≠ .idle → connectChannel ∈ party.config.fConnectChannels →
    lrange later (instancePeerKey (instances connector).fServiceName (instances connector).fId
        connectChannel) =
      [instanceChannelKey (instances binder).fServiceName (instances binder).fId bindChannel]

/-- The address of a resolved channel is made of one that was published for a channel,
and of the address of their host. What the channel had for an address is left in front of
it when it has several sockets. -/
def MadeFrom (config : TopologyConfig) (channel : Text) (published : List (Text × Text))
    (host : Option Text) (sp : SocketProperty) : Prop :=
  ∃ entry ∈ published, socketKeyPrefix config.fServiceName config.fId channel <+: entry.1 ∧
    ∃ ip, host = some ip ∧ (sp.address = makeAddress entry.2 ip ∨
      sp.address = "unspecified".toList ++ [','] ++ makeAddress entry.2 ip)

instance (config : TopologyConfig) (channel : Text) (published : List (Text × Text)) :
    ∀ host sp, Decidable (MadeFrom config channel published host sp)
  | none, sp => .isFalse (by
      rintro ⟨entry, -, -, ip, host, -⟩
      cases host)
  | some ip, sp => decidable_of_iff
      (∃ entry ∈ published, socketKeyPrefix config.fServiceName config.fId channel <+: entry.1 ∧
        (sp.address = makeAddress entry.2 ip ∨
          sp.address = "unspecified".toList ++ [','] ++ makeAddress entry.2 ip))
      (by simp only [MadeFrom, Option.some.injEq, exists_eq_left'])

namespace Couple

variable {binder connector : ι} {bindChannel connectChannel : Text}
  (couple : Couple links instances db binder connector bindChannel connectChannel) {party : Party}

include couple

theorem name_bindChannel : Name bindChannel := by
  rcases (couple.joins _).mpr rfl with ⟨link, member, joins⟩
  rcases couple.endpoints.ends member joins with ⟨-, base, -, declares, -⟩
  exact (couple.channelName binder declares.stored).name

/-- The peers that the connect instance finds in any cycle. -/
theorem peers_eq {current : TopologyConfig} {registry : Db} (standard : current.Standard)
    (sameService : current.fServiceName = (instances connector).fServiceName)
    (recorded : Recorded current.fServiceName links current.fLinks)
    (complete : ∀ link ∈ links, link.ReadBy current.fServiceName →
      (link.seenBy current.fServiceName []).spelling.pairName ∈ current.fLinks)
    (present : ∀ service instanceId,
      presenceKey service instanceId ∈ registry ↔ presenceKey service instanceId ∈ db) :
    current.peers registry connectChannel =
      [instanceChannelKey (instances binder).fServiceName (instances binder).fId bindChannel] := by
  have separate := couple.separate connector
  have isEnd : IsEnd links (instances binder).fServiceName := by
    rcases (couple.joins _).mpr rfl with ⟨link, member, ⟨-, far⟩ | ⟨-, far⟩⟩
    · exact ⟨link, member, Or.inr (congrArg Prod.fst far).symm⟩
    · exact ⟨link, member, Or.inl (congrArg Prod.fst far).symm⟩
  apply eq_of_pairwise_lt (pairwise_lt_sortUnique _) (List.pairwise_singleton _ _)
  intro key
  rw [List.mem_singleton]
  apply (mem_peers standard couple.declares.wellFormed recorded complete).trans
  rw [sameService]
  constructor
  · rintro ⟨link, member, far, reaches, instanceId, stored, rfl⟩
    have joins := reaches.resolve_right (separate.not_stray member)
    cases (couple.joins far).mp ⟨link, member, joins⟩
    rcases (couple.present _ isEnd instanceId).mp ((present _ _).mp stored) with
      ⟨i, service, rfl⟩
    rw [couple.only i service]
  · rintro rfl
    rcases (couple.joins _).mpr rfl with ⟨link, member, joins⟩
    refine ⟨link, member, _, Or.inl joins, (instances binder).fId, ?_, rfl⟩
    exact (present _ _).mpr ((couple.present _ isEnd _).mpr ⟨binder, rfl, rfl⟩)

/-! ### What a step of its own does -/

/-- The addresses in the registry are those of the current cycle of the bind instance. -/
theorem carries_step (kept : Kept instances db later)
    (sound : Sound links (instances binder) db later party)
    (carries : Carries (instances binder) bindChannel later party.published) {action : CycleAction}
    {result : Db × Party} (acts : party.Acts later action result) :
    Carries (instances binder) bindChannel result.1 result.2.published := by
  have standard := couple.standard binder
  cases acts with
  | initializeTopology idle =>
      rcases couple.exists_initializeTopology (couple.sameTopology kept.untouched) sound idle with
        ⟨current, outcome, -, equation⟩
      rw [equation]
      apply carries.congr
      intro key inSockets
      apply lookup_execAll_of_notMem
      intro command written same
      rcases List.mem_flatMap.mp written with ⟨record, -, written⟩
      rw [same] at inSockets
      exact not_area_socket (area_of_mem_writeChannel standard written) inSockets
  | writeBindAddress properties initialized shows_ =>
      apply sound.carries_writeAddress standard carries shows_
      intro name command mark
      rw [markBound] at mark
      exact ⟨_, List.mem_singleton.mp mark⟩
  | waitBindAddress => exact carries
  | resolveConnectAddress => exact carries
  | throw => exact carries
  | writeConnectAddress properties resolved shows_ =>
      apply sound.carries_writeAddress standard carries shows_
      intro name command mark
      cases mark
  | reset =>
      intro key member isPrefix
      rcases (mem_del later).mp member with ⟨notDeleted, stored⟩
      exact absurd (sound.mem_of_area stored (socketKeyPrefix_area.trans isPrefix)) notDeleted

/-- The peer list of the connect channel is that of the current cycle. -/
theorem listed_step (kept : Kept instances db later)
    (sound : Sound links (instances connector) db later party)
    (listed : Listed instances binder connector bindChannel connectChannel later party)
    {action : CycleAction} {result : Db × Party} (acts : party.Acts later action result) :
    Listed instances binder connector bindChannel connectChannel result.1 result.2 := by
  have standard := couple.standard connector
  rcases sound.sameKeys with ⟨sameService, sameId, partyStandard⟩
  -- The pipelines of `WriteAddress` do not touch the list.
  have unlisted {properties : Properties} {channels : MQChannel} {f : Text → List Command}
      (marks : ∀ name, ∀ key ∈ createdKeys (f name), key = party.config.channelKey name)
      (ofEndpoint : ∀ name ∈ channels, Part name) :
      lrange (execAll later (party.config.writeAddress properties channels f))
          (instancePeerKey (instances connector).fServiceName (instances connector).fId
            connectChannel) =
        lrange later (instancePeerKey (instances connector).fServiceName
          (instances connector).fId connectChannel) := by
    apply lrange_congr
    apply lookup_execAll_of_notMem_createdKeys
    intro new
    rcases (createdKeys_writeAddress party.config _ _ _ _).mp new with
      address | ⟨name, inChannels, mark⟩
    · rcases exists_of_mem_addressKeys (partyStandard standard) address with
        ⟨channel, index, equal⟩
      rw [sameService, sameId] at equal
      have inChannels := area_prefix_instancePeerKey (instances connector).fServiceName
        (instances connector).fId connectChannel
      rw [equal] at inChannels
      exact not_area_socket inChannels (area_prefix_instanceSocketKey _ _ _ _)
    · have equal := marks name _ mark
      rw [channelKey_eq (partyStandard standard), sameService, sameId] at equal
      exact instancePeerKey_ne_instanceChannelKey (ofEndpoint name inChannels) _ _ _ equal
  have part {name : Text} {sp : SocketProperty}
      (found : party.config.fBindChannels.lookup name = some sp ∨
        party.config.fConnectChannels.lookup name = some sp) : Part name := by
    rcases sound.ofEndpoint name sp found with ⟨-, base, declares, -⟩
    exact (couple.channelName connector declares.stored).name.part
  cases acts with
  | initializeTopology idle =>
      intro _ known
      rcases couple.exists_initializeTopology (couple.sameTopology kept.untouched) sound idle with
        ⟨current, outcome, initializes, equation⟩
      rw [equation] at known ⊢
      rcases Option.isSome_iff_exists.mp (AList.lookup_isSome.mpr known) with ⟨sp, found⟩
      rcases initializes.collected.record_of_lookup initializes.published (Or.inr found) with
        ⟨record, inRecords, rfl, sameName⟩
      rcases initializes.collected.origin initializes.published inRecords with
        ⟨origin, -, -, -, -, peersEq⟩
      have present (service instanceId : Text) :
          presenceKey service instanceId ∈ record.registry ↔
            presenceKey service instanceId ∈ db := by
        refine (mem_of_lookup_eq (initializes.published.kept record inRecords _ ?_)).trans
          (kept.untouched.mem_presenceKey service instanceId)
        exact fun published => not_region_presenceKey service instanceId
          (couple.writes_publishedKeys initializes.collected published).1
      have recorded := initializes.collected.recorded
      have complete := initializes.collected.known
      rw [← initializes.collected.sameService] at recorded complete
      have currentStandard : current.Standard := by
        rcases initializes.collected.identity with ⟨bind, connect, fLinks, rfl⟩
        exact ⟨standard.top, standard.separator⟩
      have peers := couple.peers_eq currentStandard initializes.collected.sameService recorded
        complete present
      have distinct : (outcome.2.2.map (·.sp.name)).Nodup := initializes.published.names ▸
        nodup_channelList initializes.collected.sorted initializes.collected.fromEndpoints
      have parts : ∀ record ∈ outcome.2.2, Part record.sp.name := by
        intro record inRecords
        rcases initializes.collected.origin initializes.published inRecords with
          ⟨_, -, fromEndpoint, -⟩
        have stored := fromEndpoint.endpoint
        rw [endpointKey_eq standard] at stored
        exact (couple.channelName connector stored).name.part
      have unlisted : instancePeerKey (instances connector).fServiceName (instances connector).fId
          record.sp.name ∉ later := by
        intro stored
        have registered := sound.mem_of_peerKey stored
        rw [sound.idle idle] at registered
        rw [show ((instances connector).knowing party.config.fLinks).fRegisteredKeys = [] from
          couple.noKeys connector] at registered
        cases registered
      have written := (lookup_writeChannels standard distinct parts inRecords unlisted).1
      rw [sameName] at written peersEq
      exact written.trans (peersEq.trans peers)
  | writeBindAddress properties initialized =>
      intro _ known
      rw [← listed (by rw [initialized]; decide) known]
      apply unlisted
      · intro name key mark
        rw [markBound] at mark
        exact List.mem_singleton.mp mark
      · intro name member
        rcases Option.isSome_iff_exists.mp (AList.lookup_isSome.mpr member) with ⟨sp, found⟩
        exact part (Or.inl found)
  | waitBindAddress bindWritten =>
      intro _ known
      exact listed (by rw [bindWritten]; decide) known
  | resolveConnectAddress waited =>
      intro _ known
      exact listed (by rw [waited]; decide) known
  | throw waited =>
      intro _ known
      exact listed (by rw [waited]; decide) known
  | writeConnectAddress properties resolved =>
      intro _ known
      rw [← listed (by rw [resolved]; decide) known]
      apply unlisted
      · intro name key mark
        cases mark
      · intro name member
        rcases Option.isSome_iff_exists.mp (AList.lookup_isSome.mpr member) with ⟨sp, found⟩
        exact part (Or.inr found)
  | reset =>
      intro busy
      exact absurd rfl busy

/-- What the connect instance resolves is made of the addresses in the registry. -/
theorem made_resolveConnectAddress {published : List (Text × Text)}
    (carries : Carries (instances binder) bindChannel later published)
    (sound : Sound links (instances connector) db later party)
    (listed : Listed instances binder connector bindChannel connectChannel later party)
    (busy : party.phase ≠ .idle) {resolved : List SocketProperty}
    (ok : party.config.resolveConnectAddress later = .ok resolved) :
    ∀ sp ∈ resolved, sp.name = connectChannel → MadeFrom (instances binder) bindChannel published
      (hget later (healthKey (instances binder).fServiceName (instances binder).fId)
        "hostIp".toList) sp := by
  have standard := couple.standard connector
  rcases sound.sameKeys with ⟨sameService, sameId, partyStandard⟩
  have partyStandard := partyStandard standard
  have binderName := couple.name binder
  intro sp member named
  rcases exists_of_mem_mapM_ok ok member with ⟨_, inItems, resolves⟩
  rcases List.mem_filter.mp inItems with ⟨inChannels, noAddress⟩
  rcases List.mem_map.mp inChannels with ⟨⟨name, item⟩, inOrdered, rfl⟩
  have found := mem_ordered.mp inOrdered
  have sameName := (sound.ofEndpoint name _ (Or.inr found)).1
  have itemName := (resolvePeers_name resolves).symm.trans named
  have known : connectChannel ∈ party.config.fConnectChannels := by
    rw [← itemName, sameName]
    exact AList.lookup_isSome.mp (Option.isSome_iff_exists.mpr ⟨_, found⟩)
  rw [resolveChannel, itemName, channelKey_eq partyStandard,
    peerListKey_instanceChannelKey partyStandard, sameService, sameId, listed busy known,
    List.length_singleton] at resolves
  rcases resolvePeers_one resolves with ⟨addresses, address, addressed, inAddresses, equal⟩
  rw [peerAddress, readPeerAddress, peerHealthKey_instanceChannelKey partyStandard binderName]
    at addressed
  cases read : party.config.readSubSockets (fun _ => ⟨later, false⟩) _ _ _ with
  | error fault =>
      rw [read] at addressed
      cases addressed
  | ok outcome =>
      rw [read] at addressed
      cases addressed
      have mem_scan {key : Text} :=
        @mem_scan_subSocketPattern _ later _ _ _ partyStandard binderName
        couple.name_bindChannel key
      rcases @readSubSockets_made later party.config published _ _ _ _ _
        (by
          intro key inKeys
          rcases mem_scan.mp (mem_sortUnique.mp inKeys) with ⟨stored, isPrefix⟩
          exact carries key stored isPrefix)
        read address inAddresses with ⟨entry, isEntry, inKeys, ip, host, made⟩
      refine ⟨entry, isEntry, (mem_scan.mp (mem_sortUnique.mp inKeys)).2, ip, host, ?_⟩
      rcases equal with rfl | rfl
      · exact Or.inl made
      · rw [appendAddress]
        split
        · exact Or.inl made
        · rename_i notEmpty
          right
          rw [← made, ← (empty_or_unspecified_of_not_hasAddress noAddress).resolve_left notEmpty]

theorem differs : binder ≠ connector := by
  rintro rfl
  rcases (couple.joins _).mpr rfl with ⟨link, member, ⟨near, far⟩ | ⟨near, far⟩⟩
  · exact couple.noSelf link member
      ((congrArg Prod.fst near).symm.trans (congrArg Prod.fst far))
  · exact couple.noSelf link member
      ((congrArg Prod.fst far).symm.trans (congrArg Prod.fst near))

/-- No instance writes the address of a host. -/
theorem hget_hostIp (kept : Kept instances db later) :
    hget later (healthKey (instances binder).fServiceName (instances binder).fId)
        "hostIp".toList =
      hget db (healthKey (instances binder).fServiceName (instances binder).fId)
        "hostIp".toList := by
  apply hget_congr
  apply kept
  intro i writes
  exact not_ownArea_healthKey (couple.name i) (couple.name binder) writes.2

end Couple

/-! ## All interleavings -/

section Network

variable {binder connector : ι} {bindChannel connectChannel : Text}

/-- The connect instance resolves addresses only when the bind instance has reset as
often as itself. -/
def NotBehind (binder connector : ι) (network : Network ι Db Party) : ι × CycleAction → Prop
  | (i, .resolveConnectAddress) =>
      i = connector → (network.party connector).cycle ≤ (network.party binder).cycle
  | _ => True

/-- When both are in the state `DeviceReady` after the same number of cycles, the address
that the connect instance has resolved is the one that the bind instance has published
in this cycle. -/
def UpToDate (instances : ι → TopologyConfig) (binder connector : ι)
    (bindChannel connectChannel : Text) (network : Network ι Db Party) : Prop :=
  (network.party binder).phase = .deviceReady → (network.party connector).phase = .deviceReady →
    (network.party connector).cycle = (network.party binder).cycle →
    ∀ sp ∈ (network.party connector).resolved, sp.name = connectChannel →
      MadeFrom (instances binder) bindChannel (network.party binder).published
        (hget network.shared (healthKey (instances binder).fServiceName (instances binder).fId)
          "hostIp".toList) sp

instance (binder connector : ι) [DecidableEq ι] (network : Network ι Db Party) :
    ∀ action, Decidable (NotBehind binder connector network action)
  | (i, .resolveConnectAddress) => inferInstanceAs (Decidable (i = connector → _))
  | (_, .initializeTopology) | (_, .writeBindAddress _) | (_, .waitBindAddress)
  | (_, .writeConnectAddress _) | (_, .reset) => .isTrue trivial

instance (network : Network ι Db Party) :
    Decidable (UpToDate instances binder connector bindChannel connectChannel network) :=
  inferInstanceAs (Decidable (_ → _ → _ → ∀ sp ∈ _, _ → _))

theorem MadeFrom.mono {published more : List (Text × Text)} {host : Option Text}
    {sp : SocketProperty} (made : MadeFrom config bindChannel published host sp)
    (subset : published ⊆ more) : MadeFrom config bindChannel more host sp := by
  rcases made with ⟨entry, isEntry, rest⟩
  exact ⟨entry, subset isEntry, rest⟩

/-- In a cycle an instance only adds to what it has published. -/
theorem Party.Acts.published_subset {party : Party} {action : CycleAction} {result : Db × Party}
    (acts : party.Acts later action result) :
    result.2.cycle = party.cycle ∧ party.published ⊆ result.2.published ∨
      result.2.cycle = party.cycle + 1 := by
  cases acts with
  | reset => exact Or.inr rfl
  | writeBindAddress | writeConnectAddress =>
      exact Or.inl ⟨rfl, List.subset_append_left _ _⟩
  | initializeTopology | waitBindAddress | resolveConnectAddress | throw =>
      exact Or.inl ⟨rfl, fun _ member => member⟩

/-- The invariant: the registry holds what the two have in their cycles, and what the
connect instance has resolved is not ahead of the bind instance. -/
structure Current (links : List LinkKey) (instances : ι → TopologyConfig) (db : Db)
    (binder connector : ι) (bindChannel connectChannel : Text) (network : Network ι Db Party) :
    Prop where
  inCycles : InCycles links instances db network
  carries : Carries (instances binder) bindChannel network.shared (network.party binder).published
  listed : Listed instances binder connector bindChannel connectChannel network.shared
    (network.party connector)
  made : ∀ sp ∈ (network.party connector).resolved, sp.name = connectChannel →
    (network.party connector).cycle ≤ (network.party binder).cycle ∧
      ((network.party connector).cycle = (network.party binder).cycle →
        MadeFrom (instances binder) bindChannel (network.party binder).published
          (hget db (healthKey (instances binder).fServiceName (instances binder).fId)
            "hostIp".toList) sp)

variable [DecidableEq ι] {network next : Network ι Db Party} {i : ι} {action : CycleAction}
  {result : Db × Party}

omit [DecidableEq ι] in
theorem Listed.congr {party : Party}
    (listed : Listed instances binder connector bindChannel connectChannel later party) {after : Db}
    (same : ∀ key, OwnArea (instances connector) key → after.lookup key = later.lookup key) :
    Listed instances binder connector bindChannel connectChannel after party := by
  intro busy known
  rw [lrange_congr (same _ (Or.inl (area_prefix_instancePeerKey _ _ _)))]
  exact listed busy known

namespace Current

variable (current : Current links instances db binder connector bindChannel connectChannel network)
  (couple : Couple links instances db binder connector bindChannel connectChannel)

include current couple

/-- A step of the bind instance. -/
theorem acted_binder (acts : (network.party binder).Acts network.shared action result) :
    Current links instances db binder connector bindChannel connectChannel
      (network.acted binder result) := by
  have kept := current.inCycles.kept
  constructor
  · exact current.inCycles.step couple.toReady acts
  · rw [Network.acted_shared, Network.acted_party_self]
    exact couple.carries_step kept (current.inCycles.sound binder) current.carries acts
  · rw [Network.acted_shared, Network.acted_party_of_ne _ couple.differs.symm]
    apply current.listed.congr
    intro key own
    exact current.inCycles.lookup_eq couple.toReady acts couple.differs.symm own
  · rw [Network.acted_party_self, Network.acted_party_of_ne _ couple.differs.symm]
    intro sp member named
    rcases current.made sp member named with ⟨notAhead, made⟩
    rcases acts.published_subset with ⟨sameCycle, subset⟩ | nextCycle
    · rw [sameCycle]
      exact ⟨notAhead, fun same => (made same).mono subset⟩
    · rw [nextCycle]
      constructor
      · exact Nat.le_succ_of_le notAhead
      · intro same
        rw [same] at notAhead
        exact absurd notAhead (Nat.not_succ_le_self _)

/-- A step of the connect instance. -/
theorem acted_connector (notBehind : NotBehind binder connector network (connector, action))
    (acts : (network.party connector).Acts network.shared action result) :
    Current links instances db binder connector bindChannel connectChannel
      (network.acted connector result) := by
  have kept := current.inCycles.kept
  have sound := current.inCycles.sound connector
  constructor
  · exact current.inCycles.step couple.toReady acts
  · rw [Network.acted_shared, Network.acted_party_of_ne _ couple.differs]
    apply current.carries.congr
    intro key inSockets
    exact current.inCycles.lookup_eq couple.toReady acts couple.differs (Or.inr inSockets)
  · rw [Network.acted_shared, Network.acted_party_self]
    exact couple.listed_step kept sound current.listed acts
  · rw [Network.acted_party_self, Network.acted_party_of_ne _ couple.differs]
    cases acts with
    | initializeTopology | writeBindAddress | waitBindAddress | throw | writeConnectAddress =>
        exact current.made
    | resolveConnectAddress waited resolved ok =>
        intro sp member named
        refine ⟨notBehind rfl, fun _ => ?_⟩
        rw [← couple.hget_hostIp kept]
        exact couple.made_resolveConnectAddress current.carries sound current.listed
          (by rw [waited]; decide) ok sp member named
    | reset =>
        intro sp member
        cases member

/-- A step of another instance. -/
theorem acted_other (notBinder : i ≠ binder) (notConnector : i ≠ connector)
    (acts : (network.party i).Acts network.shared action result) :
    Current links instances db binder connector bindChannel connectChannel
      (network.acted i result) := by
  constructor
  · exact current.inCycles.step couple.toReady acts
  · rw [Network.acted_shared, Network.acted_party_of_ne _ notBinder.symm]
    apply current.carries.congr
    intro key inSockets
    exact current.inCycles.lookup_eq couple.toReady acts notBinder.symm (Or.inr inSockets)
  · rw [Network.acted_shared, Network.acted_party_of_ne _ notConnector.symm]
    apply current.listed.congr
    intro key own
    exact current.inCycles.lookup_eq couple.toReady acts notConnector.symm own
  · rw [Network.acted_party_of_ne _ notBinder.symm, Network.acted_party_of_ne _ notConnector.symm]
    exact current.made

theorem step (notBehind : NotBehind binder connector network (i, action))
    (stepped : Network.step Party.step network (i, action) = some next) :
    Current links instances db binder connector bindChannel connectChannel next := by
  rcases Option.map_eq_some_iff.mp stepped with ⟨result, acted, rfl⟩
  have acts := Party.acts_of_step acted
  by_cases isBinder : i = binder
  · subst isBinder
    exact current.acted_binder couple acts
  by_cases isConnector : i = connector
  · subst isConnector
    exact current.acted_connector couple notBehind acts
  · exact current.acted_other couple isBinder isConnector acts

omit [DecidableEq ι] in
theorem upToDate : UpToDate instances binder connector bindChannel connectChannel network := by
  intro _ _ same sp member named
  rw [couple.hget_hostIp current.inCycles.kept]
  exact (current.made sp member named).2 same

end Current

omit [DecidableEq ι] in
theorem Couple.current
    (couple : Couple links instances db binder connector bindChannel connectChannel) :
    Current links instances db binder connector bindChannel connectChannel
      (beforeCycles instances db) := by
  constructor
  · exact couple.toReady.inCycles
  · intro key member isPrefix
    exact absurd (Or.inr (socketKeyPrefix_area.trans isPrefix)) (couple.unwritten binder key member)
  · intro busy
    exact absurd rfl busy
  · intro sp member
    cases member

/-- In every interleaving in which the connect instance resolves addresses only when the
bind instance has reset as often as itself, the addresses are those of the current cycle. -/
theorem always_upToDate
    (couple : Couple links instances db binder connector bindChannel connectChannel)
    {actions : List (ι × CycleAction)}
    (meets : Meets (Network.step Party.step) (NotBehind binder connector)
      (beforeCycles instances db) actions) :
    Always (Network.step Party.step)
      (UpToDate instances binder connector bindChannel connectChannel)
      (beforeCycles instances db) actions :=
  always_of_invariant
    (fun current notBehind stepped => current.step couple notBehind stepped)
    (fun current => current.upToDate couple) couple.current meets

end Network

/-! ### A source and a sink in two cycles -/

/-- A registry with the bind endpoint of a source that does not wait for its peers, the
connect endpoint of a sink, their link, both instances, and the address of a host. -/
def cycleRegistry : Db :=
  let link := knotLink .none
  let bindEnd := hset ∅ (serviceEndpointKey link.serviceL link.channelL)
    [(Field.text .method, "bind".toList), (Field.text .waitForPeerConnection, ['0'])]
  let ends := hset bindEnd (serviceEndpointKey link.serviceR link.channelR)
    [(Field.text .method, "connect".toList)]
  let present := set (set (set ends link.key []) (presenceKey link.serviceL "Src-0".toList) [])
    (presenceKey link.serviceR "Snk-0".toList) []
  hset present (healthKey link.serviceL "Src-0".toList) [("hostIp".toList, "10.0.0.1".toList)]

/-- The source is bound to a port. -/
def boundTo (port : Text) : Properties :=
  AList.insert "chans.out.0.address".toList ("tcp://*:".toList ++ port) ∅

/-- One of the two goes on from `Initialize` to the state `DeviceReady`. -/
def becomeReady (i : Bool) (properties : Properties) : List (Bool × CycleAction) :=
  [(i, .writeBindAddress properties), (i, .waitBindAddress), (i, .resolveConnectAddress),
    (i, .writeConnectAddress ∅)]

/-- The first cycle. -/
def firstCycle : List (Bool × CycleAction) :=
  [(false, .initializeTopology), (true, .initializeTopology)] ++
    becomeReady false (boundTo "5001".toList) ++ becomeReady true ∅

/-- The second cycle, where both reset first. -/
def secondCycle : List (Bool × CycleAction) :=
  [(true, .reset), (false, .reset), (true, .initializeTopology), (false, .initializeTopology)] ++
    becomeReady false (boundTo "5002".toList) ++ becomeReady true ∅

/-- The second cycle, where the sink is through before the source resets. -/
def secondCycleOvertaken : List (Bool × CycleAction) :=
  [(true, .reset), (true, .initializeTopology)] ++ becomeReady true ∅ ++
    [(false, .reset), (false, .initializeTopology)] ++ becomeReady false (boundTo "5002".toList)

theorem cycle_couple :
    Couple [knotLink .none] (knot .none) cycleRegistry false true "out".toList "in".toList := by
  have site : Site [knotLink .none] (knot .none) cycleRegistry := by
    apply @site_of_keys .none _ false
    case bindEnd => exact ⟨by decide +kernel, by decide +kernel⟩
    case connectEnd => exact ⟨by decide +kernel, by decide +kernel⟩
    all_goals decide +kernel
  refine ⟨⟨assembly_of_site site (by decide +kernel), ?_, ?_, ?_⟩, ?_, ?_⟩
  · rintro (_ | _) <;> rfl
  · rintro (_ | _) <;> rfl
  · have unwritten : ∀ i, ∀ key ∈ cycleRegistry.keys, ¬ OwnArea (knot .none i) key := by
      decide +kernel
    exact fun i key member => unwritten i key (AList.mem_keys.mp member)
  · intro far
    constructor
    · rintro ⟨link, member, ⟨near, farEq⟩ | ⟨near, farEq⟩⟩ <;> cases List.mem_singleton.mp member
      · exact absurd near (by decide)
      · exact farEq
    · rintro rfl
      exact ⟨_, List.mem_cons_self, Or.inr ⟨rfl, rfl⟩⟩
  · decide

/-- In step, the sink gets the address of the second cycle. -/
theorem always_upToDate_secondCycle :
    Always (Network.step Party.step) (UpToDate (knot .none) false true "out".toList "in".toList)
        (beforeCycles (knot .none) cycleRegistry) (firstCycle ++ secondCycle) ∧
      (Transition.run (Network.step Party.step) (beforeCycles (knot .none) cycleRegistry)
          (firstCycle ++ secondCycle)).map (fun network =>
        ((network.party true).cycle, (network.party true).resolved.map (·.address))) =
        some (1, ["tcp://10.0.0.1:5002".toList]) :=
  ⟨always_upToDate cycle_couple (by decide +kernel), by decide +kernel⟩

/-- When it overtakes the source, it is left with the address of the first one. -/
theorem not_always_upToDate :
    Couple [knotLink .none] (knot .none) cycleRegistry false true "out".toList "in".toList ∧
      ¬ Always (Network.step Party.step)
        (UpToDate (knot .none) false true "out".toList "in".toList)
        (beforeCycles (knot .none) cycleRegistry) (firstCycle ++ secondCycleOvertaken) := by
  refine ⟨cycle_couple, fun always => ?_⟩
  have outdated : (Transition.run (Network.step Party.step)
      (beforeCycles (knot .none) cycleRegistry) (firstCycle ++ secondCycleOvertaken)).map
        (fun network => decide
          (UpToDate (knot .none) false true "out".toList "in".toList network)) =
      some false := by
    decide +kernel
  rcases Option.map_eq_some_iff.mp outdated with ⟨network, reached, isFalse⟩
  have upToDate := (always_iff_forall_reached _ _ _ _).mp always _ List.prefix_rfl network reached
  exact of_decide_eq_false isFalse upToDate

end NestDaq.Topology
