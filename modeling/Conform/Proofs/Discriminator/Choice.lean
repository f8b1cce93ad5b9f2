import Conform.Validator.Run

/-!
# What a discriminator chooses

A discriminator chooses among the options of a union by their position, whatever the
options are: the schemas themselves or their validators.
-/

namespace Conform

namespace Discriminator

variable {α β : Type}

/-- The option that a value found at the key selects. -/
def chosen? (discriminator : Discriminator) (options : List α) (found : Value) : Option α :=
  (found.literal?.bind discriminator.variantOf?).bind (fun index => options[index]?)

/-- The options that are left aside. -/
def aside (discriminator : Discriminator) (options : List α) : List α :=
  discriminator.rest.filterMap (fun index => options[index]?)

/-- What is chosen among changed options is the changed choice. -/
theorem chosen?_map (discriminator : Discriminator) (change : α → β) (options : List α)
    (found : Value) :
    discriminator.chosen? (options.map change) found =
      (discriminator.chosen? options found).map change := by
  unfold chosen?
  cases found.literal?.bind discriminator.variantOf? <;> simp

/-- The changed options left aside are those left aside, changed. -/
theorem aside_map (discriminator : Discriminator) (change : α → β) (options : List α) :
    discriminator.aside (options.map change) = (discriminator.aside options).map change := by
  simp [aside, List.map_filterMap]

/-- A choice goes by the literal that is found. -/
theorem chosen?_congr {found found' : Value} (same : found.literal? = found'.literal?)
    (discriminator : Discriminator) (options : List α) :
    discriminator.chosen? options found = discriminator.chosen? options found' := by
  rw [chosen?, chosen?, same]

/-- A literal selects the option that owns it. -/
theorem chosen?_of_owned {discriminator : Discriminator} {found : Value} {literal : Literal}
    {index : Nat} (denoted : found.literal? = some literal)
    (owned : discriminator.variantOf? literal = some index) (options : List α) :
    discriminator.chosen? options found = options[index]? := by
  rw [chosen?, denoted, Option.bind_some, owned, Option.bind_some]

/-- The key that decides a union on the wire. -/
def wire (discriminator : Discriminator) : String :=
  discriminator.wireKey.getD discriminator.key

/-- What is chosen is one of the options. -/
theorem mem_of_chosen? {discriminator : Discriminator} {options : List α} {found : Value}
    {option : α} (chosen : discriminator.chosen? options found = some option) :
    option ∈ options := by
  obtain ⟨index, _, listed⟩ := Option.bind_eq_some_iff.mp chosen
  exact List.mem_of_getElem? listed

/-- What is left aside is one of the options. -/
theorem mem_of_mem_aside {discriminator : Discriminator} {options : List α} {option : α}
    (member : option ∈ discriminator.aside options) : option ∈ options := by
  obtain ⟨index, _, listed⟩ := List.mem_filterMap.mp member
  exact List.mem_of_getElem? listed

end Discriminator

namespace Validator

/-- The option that a dispatch selects is the one chosen among them. -/
theorem selected?_eq_chosen? (discriminator : Discriminator) (options : List Validator)
    (found : Value) : selected? discriminator options found = discriminator.chosen? options found :=
  rfl

/-- The options that a dispatch leaves undecided are those left aside. -/
theorem undecided_eq_aside (discriminator : Discriminator) (options : List Validator) :
    undecided discriminator options = discriminator.aside options :=
  rfl

/-- A value that is not from the network is decided by its own key. -/
theorem dispatchKey_of_inward {settings : Options}
    (inward : settings.convertFromNetwork = false) (discriminator : Discriminator)
    (choices : List Schema) (tags : Tags) :
    dispatchKey discriminator choices settings tags = discriminator.key := by
  unfold dispatchKey
  rw [inward]
  cases discriminator.wireKey <;> rfl

/-- A value from the network is decided by its own key when it carries the tag of an option, and
by the wire key otherwise. -/
theorem dispatchKey_of_network {settings : Options} (wired : settings.convertFromNetwork = true)
    (discriminator : Discriminator) (choices : List Schema) (tags : Tags) :
    dispatchKey discriminator choices settings tags =
      if choices.any tags.has then discriminator.key else discriminator.wire := by
  unfold dispatchKey Discriminator.wire
  rw [wired]
  cases discriminator.wireKey with
  | none => simp
  | some wireKey => cases choices.any tags.has <;> rfl

end Validator

end Conform
