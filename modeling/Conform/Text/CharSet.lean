/-!
# Sets of characters

A set is given by its borders: the ascending code points at which membership changes,
the first of which begins a stretch of members. One walk over the borders of two sets
gives their union, intersection and difference. `covers_combine` says that the walk
decides membership by the two memberships, and `holds_compl` that the complement
holds the other characters.
-/

namespace Conform

/-- Whether the numbers ascend from `least` on. -/
def Ascending (least : Nat) : List Nat → Prop
  | [] => True
  | first :: rest => least ≤ first ∧ Ascending (first + 1) rest

/-- Numbers that ascend from somewhere ascend from below. -/
theorem Ascending.weaken {least smaller : Nat} {numbers : List Nat} (below : smaller ≤ least)
    (ascending : Ascending least numbers) : Ascending smaller numbers := by
  cases numbers with
  | nil => trivial
  | cons first rest => exact ⟨Nat.le_trans below ascending.1, ascending.2⟩

/-- A set of characters. -/
structure CharSet where
  /-- The code points at which membership changes. -/
  borders : List Nat
  /-- They ascend. -/
  ascending : Ascending 0 borders

namespace CharSet

/-- Membership behind the borders up to a code point, if it is `inside` before them. -/
def inside (start : Bool) : List Nat → Nat → Bool
  | [], _ => start
  | border :: rest, code => if border ≤ code then inside (!start) rest code else start

/-- Whether the set covers the code point. -/
def covers (set : CharSet) (code : Nat) : Bool :=
  inside false set.borders code

/-- Whether the set holds the character. -/
def holds (set : CharSet) (character : Char) : Bool :=
  set.covers character.toNat

/-- Puts a border in front where a value changes. -/
def mark (border : Nat) (before after : Bool) (rest : List Nat) : List Nat :=
  if before = after then rest else border :: rest

/-- The borders of what `choose` makes of two memberships, which are `left` and `right`
before the first border. -/
def merge (choose : Bool → Bool → Bool) (left right : Bool) : List Nat → List Nat → List Nat
  | [], others => if choose left right = choose left (!right) then [] else others
  | borders, [] => if choose left right = choose (!left) right then [] else borders
  | border :: rest, other :: others =>
    if border < other then
      mark border (choose left right) (choose (!left) right)
        (merge choose (!left) right rest (other :: others))
    else if other < border then
      mark other (choose left right) (choose left (!right))
        (merge choose left (!right) (border :: rest) others)
    else
      mark border (choose left right) (choose (!left) (!right))
        (merge choose (!left) (!right) rest others)
  termination_by borders others => borders.length + others.length

/-- A border in front keeps the borders ascending. -/
theorem ascending_mark {least border : Nat} {before after : Bool} {rest : List Nat}
    (reached : least ≤ border) (ascending : Ascending (border + 1) rest) :
    Ascending least (mark border before after rest) := by
  unfold mark
  split
  · exact ascending.weaken (by omega)
  · exact ⟨reached, ascending⟩

/-- The walk over two ascending lists of borders ascends. -/
theorem ascending_merge {choose : Bool → Bool → Bool} {left right : Bool}
    {borders others : List Nat} {least : Nat} (ascending : Ascending least borders)
    (also : Ascending least others) :
    Ascending least (merge choose left right borders others) := by
  fun_induction merge choose left right borders others generalizing least with
  | case1 => trivial
  | case2 => exact also
  | case3 => trivial
  | case4 => exact ascending
  | case5 left right border rest other others less ih =>
    exact ascending_mark ascending.1 (ih ascending.2 ⟨less, also.2⟩)
  | case6 left right border rest other others _ less ih =>
    exact ascending_mark also.1 (ih ⟨less, ascending.2⟩ also.2)
  | case7 left right border rest other others _ _ ih =>
    have same : border = other := by omega
    subst same
    exact ascending_mark ascending.1 (ih ascending.2 also.2)

/-- Membership behind the borders is the opposite when membership before them is. -/
theorem inside_not (start : Bool) (borders : List Nat) (code : Nat) :
    inside (!start) borders code = !inside start borders code := by
  induction borders generalizing start with
  | nil => rfl
  | cons border rest ih =>
    simp only [inside]
    split
    · exact ih (!start)
    · rfl

/-- Below the first border membership is as it is before. -/
theorem inside_of_lt {start : Bool} {borders : List Nat} {least code : Nat}
    (ascending : Ascending least borders) (below : code < least) :
    inside start borders code = start := by
  cases borders with
  | nil => rfl
  | cons border rest =>
    have := ascending.1
    simp [inside, show ¬border ≤ code by omega]

/-- A marked border changes the value from there on, if the value changes at all. -/
theorem inside_mark {border code : Nat} {before after : Bool} {rest : List Nat}
    (ascending : Ascending (border + 1) rest) :
    inside before (mark border before after rest) code =
      if border ≤ code then inside after rest code else before := by
  unfold mark
  split
  · next same =>
    subst same
    split
    · rfl
    · next below => exact inside_of_lt ascending (by omega)
  · next differ =>
    have flipped : (!before) = after := by cases before <;> cases after <;> simp_all
    simp [inside, flipped]

/-- Where one membership is settled, the value changes with the other or not at all. -/
theorem inside_settled (value : Bool → Bool) (start : Bool) (borders : List Nat) (code : Nat) :
    inside (value start) (if value start = value (!start) then [] else borders) code =
      value (inside start borders code) := by
  have flipped := inside_not start borders code
  by_cases same : value start = value (!start)
  · simp only [same, if_true, inside]
    cases start <;> cases h : inside _ borders code <;> simp_all
  · simp only [same, if_false]
    cases start <;> cases h : inside _ borders code <;> cases k : value false <;>
      cases m : value true <;> simp_all

/-- Membership behind the merged borders is chosen from the two memberships. -/
theorem inside_merge {choose : Bool → Bool → Bool} {left right : Bool}
    {borders others : List Nat} {least : Nat} (ascending : Ascending least borders)
    (also : Ascending least others) (code : Nat) :
    inside (choose left right) (merge choose left right borders others) code =
      choose (inside left borders code) (inside right others code) := by
  fun_induction merge choose left right borders others generalizing least with
  | case1 left right others same =>
    simpa [same, inside] using inside_settled (choose left) right others code
  | case2 left right others differ =>
    simpa [differ, inside] using inside_settled (choose left) right others code
  | case3 left right borders _ same =>
    simpa [same, inside] using inside_settled (choose · right) left borders code
  | case4 left right borders _ differ =>
    simpa [differ, inside] using inside_settled (choose · right) left borders code
  | case5 left right border rest other others less ih =>
    have later : Ascending (border + 1) (other :: others) := ⟨less, also.2⟩
    rw [inside_mark (ascending_merge ascending.2 later), ih ascending.2 later]
    by_cases reached : border ≤ code
    · simp [inside, reached]
    · simp [inside, reached, show ¬other ≤ code by omega]
  | case6 left right border rest other others _ less ih =>
    have later : Ascending (other + 1) (border :: rest) := ⟨less, ascending.2⟩
    rw [inside_mark (ascending_merge later also.2), ih later also.2]
    by_cases reached : other ≤ code
    · simp [inside, reached]
    · simp [inside, reached, show ¬border ≤ code by omega]
  | case7 left right border rest other others _ _ ih =>
    have same : border = other := by omega
    subst same
    rw [inside_mark (ascending_merge ascending.2 also.2), ih ascending.2 also.2]
    by_cases reached : border ≤ code <;> simp [inside, reached]

/-- The code points of which `choose` makes members. -/
def combine (choose : Bool → Bool → Bool) (set other : CharSet) : CharSet where
  borders := merge choose false false set.borders other.borders
  ascending := ascending_merge set.ascending other.ascending

/-- Membership in a combination is decided by the two memberships. -/
theorem covers_combine {choose : Bool → Bool → Bool} (outside : choose false false = false)
    (set other : CharSet) (code : Nat) :
    (set.combine choose other).covers code = choose (set.covers code) (other.covers code) := by
  have walked :
      inside (choose false false) (merge choose false false set.borders other.borders) code =
        choose (set.covers code) (other.covers code) :=
    inside_merge set.ascending other.ascending code
  rwa [outside] at walked

/-- No character. -/
def empty : CharSet :=
  ⟨[], trivial⟩

/-- The code points from the first to the last. -/
def span (first last : Nat) : CharSet :=
  if ordered : first ≤ last then ⟨[first, last + 1], by simp [Ascending, ordered]⟩ else empty

/-- One code point. -/
def single (code : Nat) : CharSet :=
  span code code

/-- The members of either set. -/
def union : CharSet → CharSet → CharSet :=
  combine (· || ·)

/-- The members of both sets. -/
def inter : CharSet → CharSet → CharSet :=
  combine (· && ·)

/-- The members of the first set that are not in the second. -/
def remove : CharSet → CharSet → CharSet :=
  combine (fun left right => left && !right)

/-- The code points that are no characters. -/
def surrogates : CharSet :=
  span 0xd800 0xdfff

/-- Leaves the surrogates out unless the characters at both sides of them are members. -/
def trim (set : CharSet) : CharSet :=
  if set.covers 0xd7ff && set.covers 0xe000 then set else set.remove surrogates

/-- The members of the first set that are not in the second, without lone surrogates. -/
def diff (set other : CharSet) : CharSet :=
  (set.remove other).trim

/-- The members of exactly one of the sets. -/
def symDiff (set other : CharSet) : CharSet :=
  (set.union other).diff (set.inter other)

/-- Every character. -/
def all : CharSet :=
  span 0 0x10ffff

/-- The characters outside the set. -/
def compl (set : CharSet) : CharSet :=
  all.diff set

/-- The union of a list of sets. -/
def unions (sets : List CharSet) : CharSet :=
  sets.foldr union empty

/-- The members of a list of spans, each from a first to a last code point. -/
def ofSpans (spans : List (Nat × Nat)) : CharSet :=
  unions (spans.map (fun (first, last) => span first last))

/-- Pairs of borders as spans. -/
def pairs : List Nat → List (Nat × Nat)
  | first :: after :: rest => (first, after - 1) :: pairs rest
  | _ => []

/-- The spans of members in ascending order, with gaps between them. -/
def spans (set : CharSet) : List (Nat × Nat) :=
  pairs set.borders

/-- Whether the set has no member. -/
def isEmpty (set : CharSet) : Bool :=
  set.borders.isEmpty

/-- The only member, if there is exactly one. -/
def single? (set : CharSet) : Option Char :=
  match set.spans with
  | [(first, last)] => if first = last then some (Char.ofNat first) else none
  | _ => none

/-- Whether every member is an ASCII character. -/
def isAscii (set : CharSet) : Bool :=
  set.borders.all (· ≤ 0x80)

/-- Two sets are the same if they have the same borders. -/
def same (set other : CharSet) : Bool :=
  set.borders == other.borders

/-! ## What the operations hold -/

/-- What is removed is not covered, and the rest is as before. -/
theorem covers_remove (set other : CharSet) (code : Nat) :
    (set.remove other).covers code = (set.covers code && !other.covers code) :=
  covers_combine rfl set other code

/-- A span covers the code points from its first to its last. -/
theorem covers_span (first last code : Nat) :
    (span first last).covers code = (decide (first ≤ code) && decide (code ≤ last)) := by
  unfold span
  split
  · simp only [covers, inside]
    grind
  · simp only [covers, empty, inside]
    grind

/-- No character is a surrogate. -/
theorem covers_surrogates (character : Char) : surrogates.covers character.toNat = false := by
  have valid := character.valid
  simp only [UInt32.isValidChar, Nat.isValidChar] at valid
  have code : character.val.toNat = character.toNat := rfl
  rw [surrogates, covers_span]
  grind

/-- To leave surrogates out makes no difference to characters. -/
theorem holds_trim (set : CharSet) (character : Char) :
    set.trim.holds character = set.holds character := by
  unfold trim
  split
  · rfl
  · simp [holds, covers_remove, covers_surrogates]

/-- The difference holds the characters of the first set that the second does not hold. -/
theorem holds_diff (set other : CharSet) (character : Char) :
    (set.diff other).holds character = (set.holds character && !other.holds character) := by
  rw [diff, holds_trim]
  exact covers_remove set other character.toNat

/-- The complement holds the other characters. -/
theorem holds_compl (set : CharSet) (character : Char) :
    set.compl.holds character = !set.holds character := by
  have valid := character.valid
  simp only [UInt32.isValidChar, Nat.isValidChar] at valid
  have code : character.val.toNat = character.toNat := rfl
  have known : all.holds character = true := by
    rw [holds, all, covers_span]
    grind
  rw [compl, holds_diff, known, Bool.true_and]

end CharSet

end Conform
