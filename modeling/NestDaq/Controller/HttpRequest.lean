import NestDaq.Text.Split

/-!
# Requests for files

What the web server of the controller answers to a request: the file that the target
names below the document root, its size only, or an error. A target with two dots in a
row is refused, so whatever is requested, nothing outside the document root is read.
-/

namespace NestDaq.Http

open Text

/-- The methods of requests; all but two are unknown to the server. -/
inductive Verb where
  | get
  | head
  | other
  deriving DecidableEq

/-- A request. The last field is what `websocket::is_upgrade` says of it. -/
structure Request where
  method : Verb
  target : Text
  version : Nat
  keepAlive : Bool
  isUpgrade : Bool
  deriving DecidableEq

inductive Status where
  | ok
  | badRequest
  | notFound
  | internalServerError
  deriving DecidableEq

structure Response where
  status : Status
  version : Nat
  contentType : Text
  contentLength : Nat
  keepAlive : Bool
  body : Text
  deriving DecidableEq

/-- What there is to know about a file before it is sent. -/
inductive OpenResult where
  | contents (text : Text)
  | noSuchFileOrDirectory
  | error (message : Text)
  deriving DecidableEq

/-- What opening a path gives. -/
abbrev FileSystem := Text → OpenResult

/-- The extensions in the order of the comparisons. -/
def mimeTypes : List (Text × Text) :=
  [(".htm", "text/html"), (".html", "text/html"), (".php", "text/html"), (".css", "text/css"),
    (".txt", "text/plain"), (".js", "application/javascript"), (".json", "application/json"),
    (".xml", "application/xml"), (".swf", "application/x-shockwave-flash"),
    (".flv", "video/x-flv"), (".png", "image/png"), (".jpe", "image/jpeg"),
    (".jpeg", "image/jpeg"), (".jpg", "image/jpeg"), (".gif", "image/gif"),
    (".bmp", "image/bmp"), (".ico", "image/vnd.microsoft.icon"), (".tiff", "image/tiff"),
    (".tif", "image/tiff"), (".svg", "image/svg+xml"), (".svgz", "image/svg+xml")].map
      fun (ext, type) => (ext.toList, type.toList)

/-- `mime_type`: extensions are compared with `iequals`. -/
def mimeType (path : Text) : Text :=
  let ext := match findLastOf path ['.'] with
    | none => []
    | some pos => substrFrom path pos
  ((mimeTypes.find? fun entry => toLower ext = toLower entry.1).map (·.2)).getD
    "application/text".toList

/-- `path_cat`. -/
def pathCat (base path : Text) : Text :=
  if base = [] then path
  else if base.getLast? = some '/' then base.dropLast ++ path
  else base ++ path

/-- The target is not absolute, or contains two dots in a row. -/
def illegalTarget (target : Text) : Bool :=
  target = [] || target.head? ≠ some '/' || find target "..".toList ≠ none

/-- The path of the file that a target names. -/
def requestedPath (docRoot target : Text) : Text :=
  let path := pathCat docRoot target
  if target.getLast? = some '/' then path ++ "index.html".toList else path

/-- A response with a text of its own, which has the length of the text. -/
def textResponse (request : Request) (status : Status) (body : Text) : Response :=
  { status := status, version := request.version, contentType := "text/html".toList
    contentLength := body.length, keepAlive := request.keepAlive, body := body }

def badRequest (request : Request) (why : Text) : Response :=
  textResponse request .badRequest why

def notFound (request : Request) (target : Text) : Response :=
  textResponse request .notFound
    ("The resource '".toList ++ target ++ "' was not found.".toList)

def serverError (request : Request) (what : Text) : Response :=
  textResponse request .internalServerError
    ("An error occurred: '".toList ++ what ++ "'".toList)

/-- `handle_request`. -/
def handleRequest (docRoot : Text) (fileSystem : FileSystem) (request : Request) : Response :=
  if request.method = .other then badRequest request "Unknown HTTP-method".toList
  else if illegalTarget request.target then
    badRequest request "Illegal request-target".toList
  else
    let path := requestedPath docRoot request.target
    match fileSystem path with
    | .noSuchFileOrDirectory => notFound request request.target
    | .error message => serverError request message
    | .contents text =>
        { status := .ok, version := request.version, contentType := mimeType path
          contentLength := text.length, keepAlive := request.keepAlive
          body := if request.method = .head then [] else text }

/-- Every response keeps the connection as the request asks. -/
@[simp]
theorem handleRequest_keepAlive (docRoot : Text) (fileSystem : FileSystem) (request : Request) :
    (handleRequest docRoot fileSystem request).keepAlive = request.keepAlive := by
  simp only [handleRequest]
  split
  · rfl
  split
  · rfl
  cases fileSystem (requestedPath docRoot request.target) with
  | contents _ | noSuchFileOrDirectory | error _ => rfl

/-- The answer to `HEAD` is the one to `GET`, where the text of a file is left out. -/
theorem handleRequest_head (docRoot : Text) (fileSystem : FileSystem) (request : Request) :
    let get := handleRequest docRoot fileSystem { request with method := .get }
    handleRequest docRoot fileSystem { request with method := .head } =
      if get.status = .ok then { get with body := [] } else get := by
  simp only [handleRequest]
  split
  · rename_i unknown
    cases unknown
  split
  · rfl
  cases fileSystem (requestedPath docRoot request.target) with
  | contents _ | noSuchFileOrDirectory | error _ => rfl

/-- One component of a path leads to a directory or file. -/
def enter (directory : List Text) (component : Text) : List Text :=
  if component = [] ∨ component = ['.'] then directory
  else if component = ['.', '.'] then directory.dropLast
  else directory ++ [component]

/-- Where a path leads from a working directory, symbolic links apart. -/
def follow (directory : List Text) (path : Text) : List Text :=
  (split path ['/']).foldl enter (if path.head? = some '/' then [] else directory)

/-- A path that leads, from any working directory, to something below the place that
`docRoot` leads to. -/
def Below (docRoot path : Text) : Prop :=
  ∀ directory, follow directory docRoot <+: follow directory path

theorem prefix_foldl_enter {components : List Text} (noParent : ['.', '.'] ∉ components)
    (directory : List Text) : directory <+: components.foldl enter directory := by
  induction components generalizing directory with
  | nil => exact List.prefix_rfl
  | cons component rest ih =>
      rw [List.mem_cons, not_or] at noParent
      have entered : directory <+: enter directory component := by
        rw [enter, if_neg (Ne.symm noParent.1)]
        split
        · exact List.prefix_rfl
        · exact List.prefix_append _ _
      exact entered.trans (ih noParent.2 _)

/-- The parts of a text are found in it. -/
theorem infix_of_split {text first : Text} {parts : List Text} {delimiters : Text}
    (parted : split text delimiters = first :: parts) :
    first <+: text ∧ ∀ part ∈ parts, part <:+: text := by
  induction text generalizing first parts with
  | nil =>
      rw [split_nil] at parted
      cases parted
      exact ⟨List.nil_prefix, fun part member => absurd member List.not_mem_nil⟩
  | cons char rest ih =>
      have inside {part : Text} (isInfix : part <:+: rest) : part <:+: char :: rest :=
        isInfix.trans (List.suffix_cons char rest).isInfix
      rcases exists_split_eq_cons rest delimiters with ⟨start, more, restParted⟩
      rcases ih restParted with ⟨isPrefix, others⟩
      by_cases isDelimiter : char ∈ delimiters
      · rw [split_cons_of_mem isDelimiter, restParted] at parted
        cases parted
        constructor
        · exact List.nil_prefix
        · intro part member
          rcases List.mem_cons.mp member with rfl | inMore
          · exact inside isPrefix.isInfix
          · exact inside (others part inMore)
      · rw [split_cons_of_notMem isDelimiter restParted] at parted
        cases parted
        exact ⟨List.cons_prefix_cons.mpr ⟨rfl, isPrefix⟩, fun part member =>
          inside (others part member)⟩

theorem infix_of_mem_split {text part delimiters : Text} (member : part ∈ split text delimiters) :
    part <:+: text := by
  rcases exists_split_eq_cons text delimiters with ⟨first, parts, parted⟩
  rcases infix_of_split parted with ⟨isPrefix, others⟩
  rw [parted] at member
  rcases List.mem_cons.mp member with rfl | inParts
  · exact isPrefix.isInfix
  · exact others part inParts

/-- A legal target begins with a slash and has no component of two dots. -/
theorem legal_target {target : Text} (legal : illegalTarget target = false) :
    (∃ rest, target = '/' :: rest) ∧ ['.', '.'] ∉ split target ['/'] := by
  simp only [illegalTarget, Bool.or_eq_false_iff, decide_eq_false_iff_not, not_not] at legal
  rcases legal with ⟨⟨nonempty, absolute⟩, noDots⟩
  constructor
  · cases target with
    | nil => exact absurd rfl nonempty
    | cons char rest =>
        cases absolute
        exact ⟨rest, rfl⟩
  · intro member
    have found := isSome_find_iff.mpr (infix_of_mem_split member)
    rw [show find target ['.', '.'] = none from noDots] at found
    cases found

/-- `path_cat` puts a slash between its arguments, if the second one begins with one. -/
theorem exists_pathCat_eq {base : Text} (nonempty : base ≠ []) (rest : Text) :
    ∃ front, pathCat base ('/' :: rest) = front ++ '/' :: rest ∧
      ∀ directory, follow directory base = (split front ['/']).foldl enter
        (if (front ++ '/' :: rest).head? = some '/' then [] else directory) := by
  by_cases slash : base.getLast? = some '/'
  · rcases List.getLast?_eq_some_iff.mp slash with ⟨front, rfl⟩
    apply Exists.intro front
    constructor
    · rw [pathCat, if_neg nonempty, if_pos slash, List.dropLast_concat]
    · intro directory
      have sameHead : (front ++ ['/']).head? = (front ++ '/' :: rest).head? := by
        cases front <;> rfl
      rw [follow, sameHead, split_append_delimiter List.mem_cons_self, split_nil,
        List.foldl_append]
      rfl
  · apply Exists.intro base
    constructor
    · rw [pathCat, if_neg nonempty, if_neg slash]
    · intro directory
      rw [follow, List.head?_append_of_ne_nil _ nonempty]

/-- What is opened for a legal target is below the document root. -/
theorem below_requestedPath {docRoot target : Text} (nonempty : docRoot ≠ [])
    (legal : illegalTarget target = false) : Below docRoot (requestedPath docRoot target) := by
  rcases legal_target legal with ⟨⟨rest, rfl⟩, noParent⟩
  rcases exists_pathCat_eq nonempty rest with ⟨front, catEq, follows⟩
  intro directory
  have below {tail : Text} (noParent : ['.', '.'] ∉ split ('/' :: tail) ['/'])
      (sameHead : (front ++ '/' :: tail).head? = (front ++ '/' :: rest).head?) :
      follow directory docRoot <+: follow directory (front ++ '/' :: tail) := by
    rw [split_cons_of_mem List.mem_cons_self, List.mem_cons, not_or] at noParent
    rw [follows, follow, split_append_delimiter List.mem_cons_self, List.foldl_append, sameHead]
    exact prefix_foldl_enter noParent.2 _
  simp only [requestedPath, catEq]
  split
  · -- The name of the index is a component of its own.
    rename_i slash
    rcases List.getLast?_eq_some_iff.mp slash with ⟨before, beforeEq⟩
    rw [List.append_assoc, List.cons_append]
    apply below
    · rw [← List.cons_append, beforeEq, List.append_assoc, List.singleton_append,
        split_append_delimiter List.mem_cons_self, List.mem_append, not_or]
      rw [beforeEq, split_append_delimiter List.mem_cons_self, List.mem_append, not_or] at noParent
      exact ⟨noParent.1, by decide⟩
    · cases front <;> rfl
  · exact below noParent rfl

/-- The answers of the server depend on what is below the document root only, unless the
root is left empty: then targets are paths of the file system. -/
theorem confined_iff (docRoot : Text) :
    (∀ fileSystem other : FileSystem, (∀ path, Below docRoot path → fileSystem path = other path) →
        ∀ request, handleRequest docRoot fileSystem request = handleRequest docRoot other request) ↔
      docRoot ≠ [] := by
  constructor
  · rintro confined rfl
    have sameAnswer := confined (fun _ => .noSuchFileOrDirectory)
      (fun path => if path = "/x".toList then .contents [] else .noSuchFileOrDirectory)
      (by
        intro path below
        rw [if_neg]
        rintro rfl
        exact absurd (below ["y".toList]) (by decide))
      ⟨.get, "/x".toList, 11, true, false⟩
    exact absurd sameAnswer (by decide)
  · intro nonempty fileSystem other same request
    simp only [handleRequest]
    split
    · rfl
    split
    · rfl
    · rename_i legal
      rw [same _ (below_requestedPath nonempty (Bool.not_eq_true _ ▸ legal))]

end NestDaq.Http
