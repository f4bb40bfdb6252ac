import NestDaq.Text.Backtrack

/-!
# Databases of a server URI

The controller and the plugin for parameters listen on notification channels of the server,
whose names contain the number of a database. Both take it from the URI that they connect
to: the controller with a regular expression, in which the database is optional, and the
plugin as what stands behind the last slash.
-/

namespace NestDaq.Registry

open Text (Item matchWhole literalItems)

/-- A server URI; the database is absent, or there is a slash and perhaps a number. -/
structure ServerUri where
  scheme : Text
  host : Text
  port : Text
  db : Option Text
  scheme_ne_nil : scheme ≠ []
  scheme_free : ∀ char ∈ scheme, char ∉ [':', '/', '?', '#']
  host_ne_nil : host ≠ []
  host_free : ∀ char ∈ host, char ∉ ['/', '?', '#']
  port_ne_nil : port ≠ []
  port_digits : ∀ char ∈ port, char.isDigit
  db_digits : ∀ digits ∈ db, ∀ char ∈ digits, char.isDigit

namespace ServerUri

/-- What follows the port. -/
def path (uri : ServerUri) : Text :=
  uri.db.elim [] ('/' :: ·)

def text (uri : ServerUri) : Text :=
  uri.scheme ++ ("://".toList ++ (uri.host ++ ':' :: (uri.port ++ uri.path)))

/-- The database the client connects to. -/
def number (uri : ServerUri) : Text :=
  if uri.db.getD [] = [] then ['0'] else uri.db.getD []

end ServerUri

/-- The pattern of `GetRedisDBNumber`. -/
def uriPattern : List Item :=
  .group (fun char => char ∉ [':', '/', '?', '#']) 1 ::
    (literalItems "://".toList ++
      [.group (fun char => char ∉ ['/', '?', '#']) 1, .literal ':', .group Char.isDigit 1,
        .optional '/', .group Char.isDigit 0])

/-- `GetRedisDBNumber`; the groups of a failed match are empty. -/
def getRedisDBNumber (uri : Text) : Text :=
  let db := ((matchWhole uriPattern uri).bind (·[3]?)).getD []
  if db = [] then ['0'] else db

def redisKeyEventPrefix : Text := "__keyevent@".toList
def expiredSuffix : Text := "__:expired".toList
def redisKeySpacePrefix : Text := "__keyspace@".toList
def redisKeySpaceSuffix : Text := "__:".toList

/-- `fRedisKeyEventChannelName` of the controller. -/
def redisKeyEventChannelName (redisUri : Text) : Text :=
  redisKeyEventPrefix ++ getRedisDBNumber redisUri ++ expiredSuffix

/-- `dbNumber` of the plugin. -/
def dbNumber (serverUri : Text) : Text :=
  Text.substrFrom serverUri (Text.after (Text.findLastOf serverUri ['/']))

/-- `redisKeySpaceNotificationChannel` of a key. -/
def redisKeySpaceNotificationChannel (serverUri key : Text) : Text :=
  redisKeySpacePrefix ++ dbNumber serverUri ++ redisKeySpaceSuffix ++ key

/-- Both programs listen on the channels of a database. -/
structure Listen (uri number : Text) : Prop where
  controller : redisKeyEventChannelName uri =
    redisKeyEventPrefix ++ number ++ expiredSuffix
  plugin : ∀ key, redisKeySpaceNotificationChannel uri key =
    redisKeySpacePrefix ++ number ++ redisKeySpaceSuffix ++ key

/-- The channels tell the numbers. -/
theorem listen_iff {uri number : Text} :
    Listen uri number ↔ getRedisDBNumber uri = number ∧ dbNumber uri = number := by
  constructor
  · rintro ⟨controller, plugin⟩
    constructor
    · rw [redisKeyEventChannelName] at controller
      exact List.append_cancel_left (List.append_cancel_right controller)
    · have here := List.append_cancel_right (plugin [])
      exact List.append_cancel_left (List.append_cancel_right here)
  · rintro ⟨controller, plugin⟩
    constructor
    · rw [redisKeyEventChannelName, controller]
    · intro key
      rw [redisKeySpaceNotificationChannel, plugin]

namespace ServerUri

variable (uri : ServerUri)

/-- The port and what follows it have no colon. -/
theorem colon_notMem : ':' ∉ uri.port ++ uri.path := by
  intro member
  rcases List.mem_append.mp member with inPort | inPath
  · exact absurd (uri.port_digits _ inPort) (by decide)
  · rw [path] at inPath
    cases given : uri.db with
    | none =>
        rw [given] at inPath
        cases inPath
    | some digits =>
        rw [given] at inPath
        rcases List.mem_cons.mp inPath with isSlash | inDigits
        · cases isSlash
        · exact absurd (uri.db_digits digits given _ inDigits) (by decide)

/-- The optional slash and the database. -/
theorem matchWhole_path :
    matchWhole [.optional '/', .group Char.isDigit 0] uri.path = some [uri.db.getD []] := by
  have group : ∀ digits : Text, (∀ char ∈ digits, char.isDigit) →
      matchWhole [.group Char.isDigit 0] digits = some [digits] := by
    intro digits all
    have whole := @Text.matchWhole_group_of_stop [] [] [] Char.isDigit 0 digits (Nat.zero_le _) all
      (fun char none => by cases none) rfl
    rw [List.append_nil] at whole
    exact whole
  cases given : uri.db with
  | none =>
      rw [path, given]
      exact group [] fun char none => absurd none List.not_mem_nil
  | some digits =>
      have inner := group digits (uri.db_digits digits given)
      rw [path, given, Option.elim_some, Text.matchWhole, List.head?_cons, if_pos rfl,
        List.tail_cons, inner]
      rfl

/-- What follows the port does not begin with a digit. -/
theorem path_stop (char : Char) (first : uri.path.head? = some char) : char.isDigit = false := by
  rw [path] at first
  cases given : uri.db with
  | none =>
      rw [given] at first
      cases first
  | some digits =>
      rw [given] at first
      cases first
      rfl

/-- The host ends at the last colon. -/
theorem matchWhole_host :
    matchWhole [.group (fun char => char ∉ ['/', '?', '#']) 1, .literal ':',
        .group Char.isDigit 1, .optional '/', .group Char.isDigit 0]
        (uri.host ++ ':' :: (uri.port ++ uri.path)) =
      some [uri.host, uri.port, uri.db.getD []] := by
  have ports : matchWhole [.group Char.isDigit 1, .optional '/', .group Char.isDigit 0]
      (uri.port ++ uri.path) = some [uri.port, uri.db.getD []] :=
    Text.matchWhole_group_of_stop (List.length_pos_of_ne_nil uri.port_ne_nil) uri.port_digits
      uri.path_stop uri.matchWhole_path
  apply Text.matchWhole_group (List.length_pos_of_ne_nil uri.host_ne_nil)
  · intro char member
    exact decide_eq_true (uri.host_free char member)
  · exact (if_pos rfl).trans ports
  · intro more tail split nonempty _
    apply Text.matchWhole_literal_ne
    intro colon
    rcases List.exists_cons_of_ne_nil nonempty with ⟨char, more, rfl⟩
    rw [List.cons_append, List.cons.injEq] at split
    apply uri.colon_notMem
    rw [split.2]
    exact List.mem_append_right _ (List.mem_of_head? colon)

/-- The controller finds the database in every URI. -/
theorem getRedisDBNumber_text : getRedisDBNumber uri.text = uri.number := by
  have groups : matchWhole uriPattern uri.text =
      some [uri.scheme, uri.host, uri.port, uri.db.getD []] := by
    apply Text.matchWhole_group_of_stop (List.length_pos_of_ne_nil uri.scheme_ne_nil)
    · intro char member
      exact decide_eq_true (uri.scheme_free char member)
    · intro char first
      cases first
      rfl
    · rw [Text.matchWhole_literalItems, matchWhole_host]
  rw [getRedisDBNumber, groups]
  rfl

/-- The plugin takes what stands behind the last slash, which is the host and the port when
there is no database. -/
theorem dbNumber_text : dbNumber uri.text = uri.db.getD (uri.host ++ ':' :: uri.port) := by
  have behind : ∀ before after : Text, '/' ∉ after → dbNumber (before ++ '/' :: after) = after := by
    intro before after free
    have last := @Text.findLastOf_append_cons before after ['/'] '/' List.mem_cons_self
      fun char member isSlash => free (List.mem_singleton.mp isSlash ▸ member)
    rw [dbNumber, last]
    exact Text.substrFrom_separator before after '/'
  have slash : ∀ digits : Text, (∀ char ∈ digits, char.isDigit) → '/' ∉ digits := by
    intro digits all member
    exact absurd (all _ member) (by decide)
  cases given : uri.db with
  | none =>
      have whole : uri.text = (uri.scheme ++ [':', '/']) ++ '/' ::
          (uri.host ++ ':' :: uri.port) := by
        simp [text, path, given]
      rw [whole, behind]
      · rfl
      · intro member
        rcases List.mem_append.mp member with inHost | inPort
        · exact uri.host_free _ inHost (by decide)
        · rcases List.mem_cons.mp inPort with isColon | inDigits
          · cases isColon
          · exact slash uri.port uri.port_digits inDigits
  | some digits =>
      have whole : uri.text = (uri.scheme ++ ("://".toList ++ (uri.host ++ ':' :: uri.port))) ++
          '/' :: digits := by
        simp [text, path, given]
      rw [whole, behind _ _ (slash digits (uri.db_digits digits given))]
      rfl

end ServerUri

/-- Both programs listen on the channels of the database that the client connects to, if and
only if its number is in the URI. -/
theorem listen_number_iff (uri : ServerUri) :
    Listen uri.text uri.number ↔ ∃ digit digits, uri.db = some (digit :: digits) := by
  rw [listen_iff, uri.getRedisDBNumber_text, uri.dbNumber_text, and_iff_right rfl,
    ServerUri.number]
  cases given : uri.db with
  | none =>
      apply iff_of_false
      · intro same
        have colon : ':' ∈ ['0'] := by
          rw [← show uri.host ++ ':' :: uri.port = ['0'] from same]
          exact List.mem_append_right _ List.mem_cons_self
        exact absurd colon (by decide)
      · rintro ⟨digit, digits, none⟩
        cases none
  | some digits =>
      cases digits with
      | nil =>
          apply iff_of_false
          · intro same
            cases same
          · rintro ⟨digit, digits, none⟩
            cases none
      | cons digit digits => exact iff_of_true rfl ⟨digit, digits, rfl⟩

/-- The URI without a database; the plugin takes the address for its number. -/
theorem plainUri_not_listen :
    ¬ ∀ uri : ServerUri, Listen uri.text uri.number := by
  intro all
  have here := (listen_iff.mp (all
    ⟨"tcp".toList, "127.0.0.1".toList, "6379".toList, none, by decide, by decide, by decide,
      by decide, by decide, by decide, by decide⟩)).2
  rw [ServerUri.dbNumber_text] at here
  exact absurd here (by decide)

end NestDaq.Registry
