import NestDaq.Text.Core

/-!
# Property trees

The part of `boost::property_tree` that the handlers of messages use. A tree has
a text and named children; an array is a tree whose children have the empty
name. Reading a tree from JSON text is a parameter of the functions that do so:
a reader refuses malformed text.
-/

namespace NestDaq.Message

/-- `boost::property_tree::ptree`. -/
inductive PTree where
  | node (data : Text) (children : List (Text × PTree))

namespace PTree

def data : PTree → Text
  | node data _ => data

def children : PTree → List (Text × PTree)
  | node _ children => children

/-- A tree without children. -/
def leaf (data : Text) : PTree :=
  node data []

/-- A JSON array of strings. -/
def array (items : List Text) : PTree :=
  node [] (items.map fun item => ([], leaf item))

/-- `get_child`, which throws when it has no result. -/
def getChild (tree : PTree) (name : Text) : Option PTree :=
  (tree.children.find? fun child => child.1 = name).map Prod.snd

/-- `get_optional<std::string>`. -/
def getOptional (tree : PTree) (name : Text) : Option Text :=
  (tree.getChild name).map data

/-- The texts of the children, as `get_value<std::string>` gives them. -/
def values (tree : PTree) : List Text :=
  tree.children.map fun child => child.2.data

@[simp]
theorem values_array (items : List Text) : (array items).values = items := by
  simp [array, values, children, leaf, data, Function.comp_def]

end PTree

/-- `read_json`; malformed text has no result. -/
abbrev JsonReader := Text → Option PTree

/-- `to_json`: the reader sees the text up to the first null character. -/
def toJson (readJson : JsonReader) (text : Text) : Option PTree :=
  readJson (text.takeWhile (· ≠ '\x00'))

def commandField : Text := "command".toList
def valueField : Text := "value".toList
def nameField : Text := "name".toList
def servicesField : Text := "services".toList
def instancesField : Text := "instances".toList
def changeState : Text := "change_state".toList
def everyone : Text := "all".toList

end NestDaq.Message
