import Zeroconf.Label

/-!
This module contains domain names. Two names are the same if both or neither are fully qualified
and their labels are equal up to ASCII case.
-/

namespace Zeroconf

/--
A domain name, the label next to the root last.
-/
structure Name where
  labels : List Label
  /-- Whether the name ends at the root. -/
  fullyQualified : Bool := true
  deriving DecidableEq, Repr, Inhabited

namespace Name

def root : Name := ⟨[], true⟩

def maxWireLength : Nat := 255

/--
What a name takes in a message: a length byte in front of each label, and the root.
-/
def wireLength (labels : List Label) : Nat :=
  labels.flatten.length + labels.length + 1

def wire (labels : List Label) : List UInt8 := labels.flatMap Label.wire ++ [0]

inductive Fault where
  /-- A label is empty or too long. -/
  | unfitLabel
  /-- The labels, or the bytes that they take, are more than a message has room for. -/
  | tooLong (length : Nat)
  deriving DecidableEq, Repr

def Fault.message : Fault → String
  | .unfitLabel => "error converting some labels"
  | .tooLong length => s!"name label data exceed {maxWireLength}: {length}"

/--
`labels` with one more label next to the root, if they still fit into a message.
-/
def extend (labels : List Label) (label : Label) : Except Fault (List Label) :=
  let length := wireLength (labels ++ [label])
  if length > maxWireLength then .error (.tooLong length) else .ok (labels ++ [label])

/--
The fully qualified name with these labels, if it fits into a message.
-/
def ofLabels (labels : List Label) : Except Fault Name :=
  if labels.length > maxWireLength then
    .error (.tooLong labels.length)
  else if labels.all (decide ·.Fits) then
    (labels.foldlM extend []).map fun labels => ⟨labels, true⟩
  else
    .error .unfitLabel

def ofText? (text : String) : Option Name :=
  (Label.parseAll (Ascii.bytes text)).toOption.bind fun labels => (ofLabels labels).toOption

def fold (name : Name) : Name := { name with labels := name.labels.map Label.fold }

def same (a b : Name) : Bool := a.fold == b.fold

/--
Whether the last labels of `name` are those of `zone`, up to ASCII case.
-/
def endsWith (name : Name) (zone : List Label) : Bool :=
  (zone.map Label.fold).isSuffixOf (name.labels.map Label.fold)

def dotted (labels : List Label) : List UInt8 :=
  labels.flatMap fun label => label.escape ++ [Ascii.byte '.']

def joined (labels : List Label) : List UInt8 :=
  [Ascii.byte '.'].intercalate (labels.map Label.escape)

/--
The presentation text of a name. The root is a lone dot.
-/
def text (name : Name) : String :=
  Ascii.text <|
    if !name.fullyQualified then joined name.labels
    else if name.labels.isEmpty then [Ascii.byte '.']
    else dotted name.labels

theorem same_iff {a b : Name} : a.same b = true ↔ a.fold = b.fold := by
  simp [same]

@[simp]
theorem same_refl (a : Name) : a.same a = true := by
  simp [same]

theorem same_comm (a b : Name) : a.same b = b.same a := by
  exact BEq.comm

end Name

end Zeroconf
