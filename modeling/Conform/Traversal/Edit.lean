import Conform.Traversal.Mapping

/-!
# Edits

A small language of transforms: edits of one leaf that can be written down. An edit may
fail, and it may depend on how many edits were made before.
-/

namespace Conform.Traversal

/-- An edit of a leaf. -/
inductive Edit where
  /-- Leaves the leaf as it is. -/
  | keep
  /-- Makes the container anew, without tags. -/
  | rebuild
  /-- Doubles a number or a text and inverts a truth value, at a key or in place. -/
  | double (key : String)
  /-- Writes a value at a key, or in place. -/
  | put (key : String) (value : Value)
  /-- Writes the number of the edit at a key, or in place. -/
  | count (key : String)
  /-- Answers another value. -/
  | replace (value : Value)
  /-- Appends a value to an array. -/
  | push (value : Value)
  /-- Chooses an edit by the first value equal to the leaf. -/
  | choose (cases : List (Value × Edit)) (otherwise : Edit)
  /-- Fails with a message. -/
  | fail (message : String)
  /-- Does not end in order. -/
  | abort

namespace Edit

/-- Writes a value at a key of an object; any other leaf is replaced by the value. -/
def putAt (place : Identity) (key : String) (value leaf : Value) : Value :=
  match leaf with
  | .object _ _ _ => leaf.withField place key value
  | _ => value

/-- The part of a leaf that doubling looks at. -/
def doubledPart (key : String) (leaf : Value) : Value :=
  match leaf with
  | .object _ fields _ => (Fields.get? key fields).getD leaf
  | other => other

/-- The double of a value, if it has one. -/
def doubled? : Value → Option Value
  | .number number =>
    let value := number.toBinary64
    some (.ofBinary64? (Binary64.ofUnits? value.negative (2 * value.units) 1))
  | .string text => some (.string (text ++ text))
  | .bool value => some (.bool (!value))
  | _ => none

/-- The container anew, without tags; scalars stay. -/
def rebuilt (place : Identity) : Value → Value
  | .array _ items _ => .array place items []
  | .object _ fields _ => .object place fields []
  | scalar => scalar

mutual

/-- The edit with this number, applied to a leaf; new contents are made at the place. -/
def apply (number : Nat) (place : Identity) (leaf : Value) : Edit → Except Fault Value
  | .keep => .ok leaf
  | .rebuild => .ok (rebuilt place leaf)
  | .double key =>
    match doubled? (doubledPart key leaf) with
    | some value => .ok (putAt place key value leaf)
    | none => .ok leaf
  | .put key value => .ok (putAt place key value leaf)
  | .count key =>
    match Number.ofInt? number with
    | some value => .ok (putAt place key (.number value) leaf)
    | none => .ok leaf
  | .replace value => .ok value
  | .push value => .ok (leaf.push place value)
  | .choose cases otherwise =>
    match applyFirst number place leaf cases with
    | some result => result
    | none => apply number place leaf otherwise
  | .fail message => .error (.transform message)
  | .abort => .error .transformAborted

/-- The edit of the first case that is equal to the leaf. -/
def applyFirst (number : Nat) (place : Identity) (leaf : Value) :
    List (Value × Edit) → Option (Except Fault Value)
  | [] => none
  | (value, edit) :: rest =>
    if value.eq leaf then some (apply number place leaf edit)
    else applyFirst number place leaf rest

end

/-- The edit as a transform; one that fails leaves the leaf as it is. -/
def transform (edit : Edit) (place : Identity) : Transform := fun calls _ leaf =>
  match edit.apply (calls.length + 1) (place.part calls.length) leaf with
  | .ok value => value
  | .error _ => leaf

/-- The edit as a task for one leaf of many. -/
def task (edit : Edit) (place : Identity) (number : Nat) (leaf : Value) : Except Fault Value :=
  edit.apply number (place.part number) leaf

end Edit

end Conform.Traversal
