/-!
# JSON documents

The tree of a JSON document. The members of an object stand in document order and may repeat a
name, so a tree says exactly what a text says, blanks and spelling apart.

## Main definitions

* `Json` — the tree.
* `Json.depth` — how many containers are nested in each other.
* `Json.DoubleFree` — no number of the tree is a double.
* `Json.member?` — the value of the first member with a given name.
-/

set_option autoImplicit false

namespace CopyTrial

/-- A JSON document: an integer literal and a double are different values. -/
inductive Json where
  | null
  | boolean (b : Bool)
  | integer (i : Int)
  | double (x : Float)
  | text (s : String)
  | array (elements : List Json)
  | object (members : List (String × Json))
  deriving Inhabited

namespace Json

/-- The integers that a document can hold: those of a signed or an unsigned 64-bit word. -/
def InWordRange (i : Int) : Prop :=
  -9223372036854775808 ≤ i ∧ i < 18446744073709551616

instance (i : Int) : Decidable (InWordRange i) :=
  inferInstanceAs (Decidable (_ ∧ _))

mutual

/-- The number of containers nested in each other, the outermost one included. -/
def depth : Json → Nat
  | .array elements => depthElements elements + 1
  | .object members => depthMembers members + 1
  | _ => 0

/-- The greatest depth among elements. -/
def depthElements : List Json → Nat
  | [] => 0
  | j :: rest => max j.depth (depthElements rest)

/-- The greatest depth among the values of members. -/
def depthMembers : List (String × Json) → Nat
  | [] => 0
  | (_, j) :: rest => max j.depth (depthMembers rest)

end

mutual

/-- No number of the document is a double. -/
def DoubleFree : Json → Prop
  | .double _ => False
  | .array elements => DoubleFreeElements elements
  | .object members => DoubleFreeMembers members
  | _ => True

/-- No element holds a double. -/
def DoubleFreeElements : List Json → Prop
  | [] => True
  | j :: rest => j.DoubleFree ∧ DoubleFreeElements rest

/-- No member's value holds a double. -/
def DoubleFreeMembers : List (String × Json) → Prop
  | [] => True
  | (_, j) :: rest => j.DoubleFree ∧ DoubleFreeMembers rest

end

/-- The value of the first member with this name; nothing for a document that is no object. -/
def member? (name : String) : Json → Option Json
  | .object members => members.lookup name
  | _ => none

end Json

end CopyTrial
