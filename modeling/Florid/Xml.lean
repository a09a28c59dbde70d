import Mathlib.Data.List.Basic

/-! Trees of elements as a document object model keeps them, and the changes made in place: the
first child of a kind, the value of an attribute. -/
namespace Florid.Xml

@[ext]
structure Element where
  tag : String
  attributes : List (String × List Char) := []
  text : Option (List Char) := none
  children : List Element := []
  tail : Option (List Char) := none

/-! ### The first of a kind -/

section First
variable {α : Type} {p : α → Bool} {f g : α → α}

/-- The first element of this kind, changed; the list as it is where there is none. -/
def modifyFirst (p : α → Bool) (f : α → α) : List α → List α
  | [] => []
  | x :: xs => if p x then f x :: xs else x :: modifyFirst p f xs

theorem find?_modifyFirst (keeps : ∀ x, p x = true → p (f x) = true) (xs : List α) :
    (modifyFirst p f xs).find? p = (xs.find? p).map f := by
  induction xs with
  | nil => rfl
  | cons x xs ih =>
    by_cases found : p x = true
    · simp [modifyFirst, found, keeps x found]
    · simp [modifyFirst, found, ih]

/-- Elements of another kind are found where they were. -/
theorem find?_modifyFirst_other {q : α → Bool} (apart : ∀ x, p x = true → q x = false)
    (keeps : ∀ x, p x = true → q (f x) = false) (xs : List α) :
    (modifyFirst p f xs).find? q = xs.find? q := by
  induction xs with
  | nil => rfl
  | cons x xs ih =>
    by_cases found : p x = true
    · simp [modifyFirst, found, keeps x found, apart x found]
    · simp [modifyFirst, found, List.find?_cons, ih]

theorem modifyFirst_modifyFirst (keeps : ∀ x, p x = true → p (f x) = true) (xs : List α) :
    modifyFirst p g (modifyFirst p f xs) = modifyFirst p (g ∘ f) xs := by
  induction xs with
  | nil => rfl
  | cons x xs ih =>
    by_cases found : p x = true
    · simp [modifyFirst, found, keeps x found]
    · simp [modifyFirst, found, ih]

theorem modifyFirst_congr {xs : List α} (same : ∀ x ∈ xs, p x = true → f x = g x) :
    modifyFirst p f xs = modifyFirst p g xs := by
  induction xs with
  | nil => rfl
  | cons x xs ih =>
    have rest := ih fun y member => same y (List.mem_cons_of_mem x member)
    by_cases found : p x = true
    · simp [modifyFirst, found, same x List.mem_cons_self found]
    · simp [modifyFirst, found, rest]

theorem modifyFirst_of_none {xs : List α} (none : xs.find? p = none) :
    modifyFirst p f xs = xs := by
  induction xs with
  | nil => rfl
  | cons x xs ih =>
    rw [List.find?_cons] at none
    split at none
    · cases none
    · rename_i other
      simp [modifyFirst, other, ih none]

theorem any_modifyFirst (keeps : ∀ x, p x = true → p (f x) = true) (xs : List α) :
    (modifyFirst p f xs).any p = xs.any p := by
  induction xs with
  | nil => rfl
  | cons x xs ih =>
    by_cases found : p x = true
    · simp [modifyFirst, found, keeps x found]
    · simp [modifyFirst, found, ih]

/-- A change that makes the first of one kind the first of another. -/
theorem modifyFirst_modifyFirst_of_none {q : α → Bool} (makes : ∀ x, p x = true → q (f x) = true)
    {xs : List α} (none : xs.any q = false) :
    modifyFirst q g (modifyFirst p f xs) = modifyFirst p (g ∘ f) xs := by
  induction xs with
  | nil => rfl
  | cons x xs ih =>
    simp only [List.any_cons, Bool.or_eq_false_iff] at none
    by_cases found : p x = true
    · simp [modifyFirst, found, makes x found]
    · simp [modifyFirst, found, none.1, ih none.2]

theorem find?_modifyFirst_of_none {q : α → Bool} (makes : ∀ x, p x = true → q (f x) = true)
    {xs : List α} (none : xs.any q = false) :
    (modifyFirst p f xs).find? q = (xs.find? p).map f := by
  induction xs with
  | nil => rfl
  | cons x xs ih =>
    simp only [List.any_cons, Bool.or_eq_false_iff] at none
    by_cases found : p x = true
    · simp [modifyFirst, found, makes x found]
    · simp [modifyFirst, found, none.1, ih none.2]

theorem modifyFirst_append_of_none {xs : List α} (none : xs.any p = false) (x : α) :
    modifyFirst p f (xs ++ [x]) = if p x then xs ++ [f x] else xs ++ [x] := by
  induction xs with
  | nil => simp [modifyFirst]
  | cons y ys ih =>
    simp only [List.any_cons, Bool.or_eq_false_iff] at none
    rw [List.cons_append, modifyFirst, if_neg (by simp [none.1]), ih none.2]
    split <;> rfl

end First

/-! ### Attributes -/

/-- A key's value put in place of its old one, or behind the others. -/
def assign (key : String) (value : List Char) :
    List (String × List Char) → List (String × List Char)
  | [] => [(key, value)]
  | (k, v) :: rest => if k = key then (k, value) :: rest else (k, v) :: assign key value rest

theorem lookup_assign (key : String) (value : List Char)
    (attributes : List (String × List Char)) :
    (assign key value attributes).lookup key = some value := by
  induction attributes with
  | nil => simp [assign]
  | cons entry rest ih =>
    obtain ⟨k, v⟩ := entry
    by_cases same : k = key
    · simp [assign, same]
    · have other : (key == k) = false := by simp [Ne.symm same]
      simp [assign, same, List.lookup_cons, other, ih]

theorem lookup_assign_ne {key other : String} (apart : other ≠ key) (value : List Char)
    (attributes : List (String × List Char)) :
    (assign key value attributes).lookup other = attributes.lookup other := by
  have distinct : (other == key) = false := by simpa using apart
  induction attributes with
  | nil => simp [assign, List.lookup_cons, distinct]
  | cons entry rest ih =>
    obtain ⟨k, v⟩ := entry
    by_cases same : k = key
    · simp [assign, same, List.lookup_cons, distinct]
    · simp [assign, same, List.lookup_cons, ih]

theorem assign_assign (key : String) (first second : List Char)
    (attributes : List (String × List Char)) :
    assign key second (assign key first attributes) = assign key second attributes := by
  induction attributes with
  | nil => simp [assign]
  | cons entry rest ih =>
    obtain ⟨k, v⟩ := entry
    by_cases same : k = key
    · simp [assign, same]
    · simp [assign, same, ih]

/-- Assigning the value that is there changes nothing. -/
theorem assign_self {key : String} {value : List Char} {attributes : List (String × List Char)}
    (there : attributes.lookup key = some value) : assign key value attributes = attributes := by
  induction attributes with
  | nil => cases there
  | cons entry rest ih =>
    obtain ⟨k, v⟩ := entry
    rw [List.lookup_cons] at there
    by_cases same : k = key
    · subst same
      simp_all [assign]
    · have other : (key == k) = false := by simp [Ne.symm same]
      rw [other] at there
      simp [assign, same, ih there]

namespace Element

def get (element : Element) (key : String) : Option (List Char) := element.attributes.lookup key

def set (element : Element) (key : String) (value : List Char) : Element :=
  { element with attributes := assign key value element.attributes }

def isTag (tag : String) (element : Element) : Bool := element.tag == tag

/-- The first child of this tag. -/
def find (element : Element) (tag : String) : Option Element :=
  element.children.find? (isTag tag)

def findall (element : Element) (tag : String) : List Element :=
  element.children.filter (isTag tag)

/-- The first child of this kind, changed in place. -/
def modifyChild (element : Element) (p : Element → Bool) (f : Element → Element) : Element :=
  { element with children := modifyFirst p f element.children }

def append (element child : Element) : Element :=
  { element with children := element.children ++ [child] }

@[simp] theorem tag_set (element : Element) (key : String) (value : List Char) :
    (element.set key value).tag = element.tag := rfl

@[simp] theorem children_set (element : Element) (key : String) (value : List Char) :
    (element.set key value).children = element.children := rfl

@[simp] theorem tag_modifyChild (element : Element) (p : Element → Bool)
    (f : Element → Element) : (element.modifyChild p f).tag = element.tag := rfl

@[simp] theorem get_modifyChild (element : Element) (p : Element → Bool)
    (f : Element → Element) (key : String) :
    (element.modifyChild p f).get key = element.get key := rfl

@[simp] theorem get_set (element : Element) (key : String) (value : List Char) :
    (element.set key value).get key = some value := lookup_assign key value _

theorem get_set_ne {key other : String} (apart : other ≠ key) (element : Element)
    (value : List Char) : (element.set key value).get other = element.get other :=
  lookup_assign_ne apart value _

theorem set_set (element : Element) (key : String) (first second : List Char) :
    (element.set key first).set key second = element.set key second := by
  simp [set, assign_assign]

theorem set_self {element : Element} {key : String} {value : List Char}
    (there : element.get key = some value) : element.set key value = element := by
  cases element
  rw [set, assign_self there]

theorem modifyChild_modifyChild {p : Element → Bool} {f g : Element → Element}
    (keeps : ∀ x, p x = true → p (f x) = true) (element : Element) :
    (element.modifyChild p f).modifyChild p g = element.modifyChild p (g ∘ f) := by
  simp only [modifyChild, modifyFirst_modifyFirst keeps]

theorem find_modifyChild {tag : String} {f : Element → Element} (keeps : ∀ x, (f x).tag = x.tag)
    (element : Element) :
    (element.modifyChild (isTag tag) f).find tag = (element.find tag).map f :=
  find?_modifyFirst (fun x kind => by simpa [isTag, keeps] using kind) element.children

/-- A child of another tag is found as it was. -/
theorem find_modifyChild_other {tag : String} {p : Element → Bool} (f : Element → Element)
    (apart : ∀ x, p x = true → x.isTag tag = false) (keeps : ∀ x, (f x).tag = x.tag)
    (element : Element) : (element.modifyChild p f).find tag = element.find tag :=
  find?_modifyFirst_other apart (fun x kind => by simpa [isTag, keeps] using apart x kind)
    element.children

theorem find_append_other {tag : String} {child : Element} (apart : child.isTag tag = false)
    (element : Element) : (element.append child).find tag = element.find tag := by
  simp [find, append, List.find?_append, apart]

theorem modifyChild_set_set (element : Element) (tag key : String) (first second : List Char) :
    (element.modifyChild (isTag tag) (·.set key first)).modifyChild (isTag tag)
        (·.set key second) = element.modifyChild (isTag tag) (·.set key second) := by
  have keeps : ∀ x, isTag tag x = true → isTag tag (x.set key first) = true := fun _ kind => kind
  rw [modifyChild_modifyChild keeps]
  congr 1
  funext child
  exact set_set child key first second

end Element
end Florid.Xml
