import Graft.Json.Basic
import Graft.Tree.Position

/-!
# Document trees

A tree of markup: roots and elements hold children, texts carry the characters
that rules search, comments and document type declarations are kept as they are.
A node owns its children, so every node but the outermost one has exactly one
parent.

Each node may have a position and data (`Info`), which nothing here reads: they
are carried along with the node. What is gathered here beside the type are the
few things that a walk and a splice ask for (`is_text`, `value`, `children`) and
the text content of nodes (`text_content`), the values of all texts below them
one after the other. Comments and document types have a value or a name, but no
text content.

Beside `=`, nodes have the equality `Node.same`, which looks past the order of
members in properties and data and past the sign of zero. It is what comparing
two nodes means in the program, where objects are maps and numbers are compared
by value; `=` is finer, and proofs use it wherever a tree has not been touched
at all.
-/

namespace Graft

/-- What every node may carry besides its content. -/
structure Info where
  /-- Where the node came from. -/
  position : Option Position := none
  /-- Data that other tools attached. -/
  data : Option Json := none

/-- A node of a document tree. -/
inductive Node where
  /-- The root of a document. -/
  | root (children : List Node) (info : Info)
  /-- An element with its tag name and properties. -/
  | element (tag : String) (properties : Members) (children : List Node) (info : Info)
  /-- A leaf of text. -/
  | text (value : String) (info : Info)
  /-- A comment, whose value is not text content. -/
  | comment (value : String) (info : Info)
  /-- A document type declaration. -/
  | doctype (name : Option String) (info : Info)

/-- The kinds of nodes. -/
inductive Kind where
  | root
  | element
  | text
  | comment
  | doctype
  deriving DecidableEq

namespace Kind

/-- The kinds, in the order they are numbered and listed. -/
def all : List Kind := [root, element, text, comment, doctype]

/-- The name of a kind in the JSON form of a node. -/
def name : Kind → String
  | root => "root"
  | element => "element"
  | text => "text"
  | comment => "comment"
  | doctype => "doctype"

/-- The kind with this name. -/
def ofName? (name : String) : Option Kind := all.find? fun kind => kind.name = name

@[simp] theorem ofName?_name (kind : Kind) : ofName? kind.name = some kind := by
  cases kind <;> decide

end Kind

/-- An element on its own. -/
structure Element where
  /-- The tag name. -/
  tag : String
  /-- The properties, in order. -/
  properties : Members
  /-- The children. -/
  children : List Node
  /-- Position and data. -/
  info : Info

namespace Node

/-- A root with these children and nothing else. -/
def ofChildren (children : List Node) : Node := .root children {}

/-- An element with these children and no properties. -/
def ofTag (tag : String) (children : List Node) : Node := .element tag [] children {}

/-- A text with this value and nothing else. -/
def ofText (value : String) : Node := .text value {}

/-- A comment with this value and nothing else. -/
def ofComment (value : String) : Node := .comment value {}

/-- The kind of a node. -/
def kind : Node → Kind
  | .root .. => .root
  | .element .. => .element
  | .text .. => .text
  | .comment .. => .comment
  | .doctype .. => .doctype

/-- Whether a node is a text. -/
def isText : Node → Bool
  | .text .. => true
  | _ => false

/-- Whether a node can hold children. -/
def isParent : Node → Bool
  | .root .. | .element .. => true
  | _ => false

/-- The node as an element, if it is one. -/
def element? : Node → Option Element
  | .element tag properties children info => some ⟨tag, properties, children, info⟩
  | _ => none

/-- The tag name of an element. -/
def tag? : Node → Option String
  | .element tag .. => some tag
  | _ => none

/-- The value of a text or comment. -/
def value? : Node → Option String
  | .text value _ | .comment value _ => some value
  | _ => none

/-- The children of a node; texts, comments and declarations have none. -/
def children : Node → List Node
  | .root children _ | .element _ _ children _ => children
  | _ => []

/-- The children of a node that can hold some. -/
def children? (node : Node) : Option (List Node) :=
  if node.isParent then some node.children else none

/-- Position and data of a node. -/
def info : Node → Info
  | .root _ info | .element _ _ _ info | .text _ info | .comment _ info | .doctype _ info => info

/-- The node with other children, where it can hold some. -/
def withChildren (node : Node) (children : List Node) : Node :=
  match node with
  | .root _ info => .root children info
  | .element tag properties _ info => .element tag properties children info
  | leaf => leaf

@[simp] theorem children_withChildren {node : Node} (children : List Node)
    (h : node.isParent = true) : (node.withChildren children).children = children := by
  cases node <;> simp_all [isParent, withChildren, Node.children]

@[simp] theorem withChildren_children (node : Node) : node.withChildren node.children = node := by
  cases node <;> rfl

@[simp] theorem isParent_withChildren (node : Node) (children : List Node) :
    (node.withChildren children).isParent = node.isParent := by
  cases node <;> rfl

theorem exists_of_isText {node : Node} (h : node.isText = true) :
    ∃ value info, node = .text value info := by
  cases node with
  | text value info => exact ⟨value, info, rfl⟩
  | _ => exact absurd h Bool.false_ne_true

mutual

/-- The values of all texts in the tree, one after the other. -/
def textContent : Node → String
  | .text value _ => value
  | .root children _ | .element _ _ children _ => textContents children
  | .comment .. | .doctype .. => ""

/-- The text content of a list of nodes. -/
def textContents : List Node → String
  | [] => ""
  | node :: rest => node.textContent ++ textContents rest

end

mutual

/-- The number of nodes in the tree. -/
def size : Node → Nat
  | .root children _ | .element _ _ children _ => sizes children + 1
  | .text .. | .comment .. | .doctype .. => 1

/-- The number of nodes in a list of trees. -/
def sizes : List Node → Nat
  | [] => 0
  | node :: rest => node.size + sizes rest

end

theorem size_pos (node : Node) : 0 < node.size := by
  cases node <;> simp [size]

/-- Equality of optional data up to the order of members and the sign of zero. -/
def sameData : Option Json → Option Json → Bool
  | none, none => true
  | some a, some b => a.same b
  | _, _ => false

/-- Equality of position and data. -/
def sameInfo (a b : Info) : Bool := a.position = b.position && sameData a.data b.data

mutual

/-- Equality of trees up to the order of members in properties and data and the
sign of zero. -/
def same : Node → Node → Bool
  | .root xs a, .root ys b => sameNodes xs ys && sameInfo a b
  | .element s ps xs a, .element t qs ys b =>
    s = t && (Json.object ps).same (Json.object qs) && sameNodes xs ys && sameInfo a b
  | .text s a, .text t b => s = t && sameInfo a b
  | .comment s a, .comment t b => s = t && sameInfo a b
  | .doctype s a, .doctype t b => s = t && sameInfo a b
  | _, _ => false

/-- Equality of two lists of trees, place by place. -/
def sameNodes : List Node → List Node → Bool
  | [], [] => true
  | x :: xs, y :: ys => x.same y && sameNodes xs ys
  | _, _ => false

end

end Node

namespace Element

/-- The element as a node. -/
def toNode (e : Element) : Node := .element e.tag e.properties e.children e.info

/-- The value of a property. -/
def property? (e : Element) (name : String) : Option Json := Members.get? e.properties name

/-- The element with a property set. -/
def withProperty (e : Element) (name : String) (value : Json) : Element :=
  { e with properties := Members.set e.properties name value }

end Element

end Graft
