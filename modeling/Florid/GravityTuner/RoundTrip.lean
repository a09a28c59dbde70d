import Florid.GravityTuner.SaveTwice

/-! Loading what one save has written. A mass is written into one link although Pinocchio's mass of
a joint is that of all links fixed to each other; an axis that is not written cannot be reversed
in place, and one that is reversed is rounded. -/
namespace Florid.GravityTuner
open Xml Decimal

/-! ### The URDF -/

def parentLink (joint : Element) : Option (List Char) :=
  (joint.find "parent").bind (·.get "link")

/-- A link, and the links that fixed joints attach to it. -/
inductive Rigid (root : Element) (link : List Char) : List Char → Prop where
  | refl : Rigid root link link
  | fixed {parent child : List Char} {joint : Element} : Rigid root link parent →
      joint ∈ root.findall "joint" → joint.get "type" = some "fixed".toList →
      parentLink joint = some parent → childLink joint = some child → Rigid root link child

/-- The element with a link's mass. -/
def massElement (link : Element) : Option Element :=
  (link.children.find? hasMass).bind (·.find "mass")

section Reader
variable (number : List Char → Option ℚ)

/-- The mass that a link's element gives, zero where it gives none. -/
def linkMass (link : Element) : ℚ :=
  (((massElement link).bind (·.get "value")).bind number).getD 0

open Classical in
/-- The mass of the links that this holds of. -/
noncomputable def massOf (root : Element) (p : List Char → Prop) : ℚ :=
  (root.children.map fun element =>
    if element.isTag "link" = true ∧ ∃ name, element.get "name" = some name ∧ p name then
      linkMass number element else 0).sum

/-- Elements of a tag do not share this key. -/
def Unique (root : Element) (tag : String) (key : Element → Option (List Char)) : Prop :=
  ∀ (i k : Nat) (first second : Element), root.children[i]? = some first →
    root.children[k]? = some second → first.isTag tag = true → second.isTag tag = true →
    key first = key second → i = k

/-- Links joined to a tree, as the format asks for it. -/
structure WellFormed (root : Element) : Prop where
  jointNames : Unique root "joint" (·.get "name")
  linkNames : Unique root "link" (·.get "name")
  parents : Unique root "joint" childLink
  child : ∀ joint ∈ root.findall "joint", ∃ link ∈ root.findall "link", ∃ name, name ≠ [] ∧
    childLink joint = some name ∧ link.get "name" = some name
  axis : ∀ joint ∈ root.findall "joint", ∀ axis, joint.find "axis" = some axis →
    (axis.get "xyz").isSome = true

/-- A joint as Pinocchio builds it of its element: with the mass of the links rigidly attached to
its child, and with the axis that is given, or (1, 0, 0). -/
structure Describes (root : Element) (joint : PinJoint) (element : Element) : Prop where
  mass : ∀ link, childLink element = some link →
    joint.mass = massOf number root (Rigid root link)
  floating : joint.axis = none ↔ element.get "type" = some "floating".toList
  absent : ∀ a, joint.axis = some a → element.find "axis" = none → a = (1, 0, 0)
  axis : ∀ a, joint.axis = some a → ∀ axis, element.find "axis" = some axis →
    ∀ text, axis.get "xyz" = some text →
      (Words.split text).mapM number = some [a.1, a.2.1, a.2.2]

/-- What is taken of Pinocchio, and of the reader of numbers below it: of a well-formed document it
builds a joint for each that is not fixed, and a decimal numeral is the number it writes. -/
structure Documented (build : Build) : Prop where
  agrees : ∀ text v q, read text = some v → number text = some q → v.value = some q
  movable : ∀ root model, WellFormed root → build root = some model → ∀ name,
    (∃ joint ∈ model.joints, joint.name = name ∧ joint.nv ≠ 0) ↔
      ∃ element ∈ root.findall "joint", element.get "name" = some name ∧
        element.get "type" ≠ some "fixed".toList
  masses : ∀ root model, WellFormed root → build root = some model →
    ∀ link ∈ root.findall "link", ∀ element, massElement link = some element →
      ∃ text q, element.get "value" = some text ∧ number text = some q
  joints : ∀ root model, WellFormed root → build root = some model →
    ∀ joint ∈ model.joints, joint.nv ≠ 0 → ∀ element ∈ root.findall "joint",
      element.get "name" = some joint.name → Describes number root joint element

end Reader

/-! ### What comes back -/

def negateAxis (a : ℚ × ℚ × ℚ) : ℚ × ℚ × ℚ := (-a.1, -a.2.1, -a.2.2)

def SameDirection (a b : ℚ × ℚ × ℚ) : Prop :=
  ∃ k : ℚ, 0 < k ∧ b = (k * a.1, k * a.2.1, k * a.2.2)

/-- A joint's mass has come back as its six digits, and its axis in the direction that it had, or
against it where the joint's scale is negative. -/
structure Restored (original rebuilt : PinModel) (joint : Joint) (fresh : GravityModel) :
    Prop where
  mass : ∃ new ∈ fresh.joints, new.name = joint.name ∧
    new.mass.value = (rounded 6 joint.mass).value
  axis : ∀ before ∈ original.joints, before.nv ≠ 0 → before.name = joint.name →
    ∀ a, before.axis = some a → ∃ after ∈ rebuilt.joints, after.nv ≠ 0 ∧
      after.name = joint.name ∧ ∃ b, after.axis = some b ∧
        SameDirection (if joint.scale.lessThanZero then negateAxis a else a) b

/-- Rounding to six digits stretches the components alike. -/
def KeepsDirection (values : List Double) : Prop :=
  ∃ k : ℚ, 0 < k ∧ ∀ v ∈ values, (rounded 6 v).value = v.value.map (k * ·)

/-- The element of a joint in the loaded URDF. -/
def ElementOf (root : Element) (joint : Joint) (element : Element) : Prop :=
  element ∈ root.findall "joint" ∧ element.get "name" = some joint.name

/-- One link carries the joint's mass alone, and an axis that is to be reversed can be, without a
loss in its direction. -/
structure Writable (number : List Char → Option ℚ) (root : Element) (joint : Joint) : Prop where
  alone : ∀ element, ElementOf root joint element → ∀ link, childLink element = some link →
    massOf number root (fun name => name ≠ link ∧ Rigid root link name) = 0
  reversible : joint.scale.lessThanZero = true → ∀ element, ElementOf root joint element →
    element.get "type" ≠ some "floating".toList →
      ∃ axis text values, element.find "axis" = some axis ∧ axis.get "xyz" = some text ∧
        components text = some values ∧ KeepsDirection values

/-! ### What a save leaves alone -/

theorem isTag_other {tag other : String} (apart : other ≠ tag) {element : Element}
    (kind : element.isTag tag = true) : element.isTag other = false := by
  simp only [Element.isTag, beq_iff_eq, beq_eq_false_iff_ne] at kind ⊢
  rw [kind]
  exact Ne.symm apart

theorem find_setMassElement {tag : String} (other : tag ≠ "inertial") (mass : Double)
    (link : Element) : (setMassElement mass link).find tag = link.find tag := by
  unfold setMassElement
  dsimp only
  split_ifs
  · refine Element.find_modifyChild_other _ (fun x has => ?_) ?_ link
    · simp only [hasMass, Bool.and_eq_true] at has
      exact isTag_other other has.1
    · exact fun _ => rfl
  · refine Element.find_modifyChild_other _ (fun x kind => isTag_other other kind) ?_ link
    exact fun _ => rfl
  · exact Element.find_append_other (isTag_other other rfl) link

theorem find_flipAxis_other {tag : String} (other : tag ≠ "axis") (joint : Element) :
    (flipAxis joint).find tag = joint.find tag := by
  rcases flipAxis_eq joint with same | ⟨text, changed⟩
  · rw [same]
  · rw [changed]
    refine Element.find_modifyChild_other _ (fun x kind => isTag_other other kind) ?_ joint
    exact fun _ => rfl

theorem find_touchAll {tag : String} (inertial : tag ≠ "inertial") (axis : tag ≠ "axis")
    (joints : List Joint) (i : Nat) (element : Element) :
    (touchAll joints i element).find tag = element.find tag := by
  induction joints generalizing element with
  | nil => rfl
  | cons joint joints ih =>
    have step : (joint.touch i element).find tag = element.find tag := by
      unfold Joint.touch
      dsimp only
      split_ifs <;> simp [find_flipAxis_other axis, find_setMassElement inertial]
    exact (ih (joint.touch i element)).trans step

/-- The mass that is written is the one that is found. -/
theorem massElement_setMassElement (mass : Double) (link : Element) :
    ∃ element, massElement (setMassElement mass link) = some element ∧
      element.get "value" = some (write 6 mass) := by
  let made := ({ tag := "mass" } : Element).set "value" (write 6 mass)
  have valued : made.get "value" = some (write 6 mass) := Element.get_set ..
  cases has : link.children.any hasMass with
  | true =>
    have changed : (setMassElement mass link).children.find? hasMass =
        (link.children.find? hasMass).map
          (·.modifyChild (Element.isTag "mass") (·.set "value" (write 6 mass))) := by
      have once : setMassElement mass link = link.modifyChild hasMass
          (·.modifyChild (Element.isTag "mass") (·.set "value" (write 6 mass))) := by
        simp [setMassElement, has]
      rw [once]
      exact find?_modifyFirst (fun _ => hasMass_modify _) link.children
    obtain ⟨child, member, holds⟩ := List.any_eq_true.mp has
    obtain ⟨inertial, found⟩ := Option.isSome_iff_exists.mp
      (List.find?_isSome.mpr ⟨child, member, holds⟩)
    have holds := List.find?_some found
    simp only [hasMass, Bool.and_eq_true] at holds
    obtain ⟨element, inner⟩ := Option.isSome_iff_exists.mp holds.2
    refine ⟨element.set "value" (write 6 mass), ?_, Element.get_set ..⟩
    rw [massElement, changed, found, Option.map_some, Option.bind_some,
      Element.find_modifyChild (f := (·.set "value" (write 6 mass))) (fun _ => rfl), inner,
      Option.map_some]
  | false =>
    cases empty : (link.find "inertial").isSome with
    | true =>
      have changed : (setMassElement mass link).children.find? hasMass =
          (link.find "inertial").map (·.append made) := by
        have once : setMassElement mass link =
            link.modifyChild (Element.isTag "inertial") (·.append made) := by
          simp [setMassElement, has, empty, made]
        rw [once]
        exact find?_modifyFirst_of_none (fun _ tag => hasMass_append tag _) has
      obtain ⟨inertial, found⟩ := Option.isSome_iff_exists.mp empty
      have absent : inertial.find "mass" = none := by
        have holds : hasMass inertial = false := by
          simpa using List.any_eq_false.mp has inertial (List.mem_of_find?_eq_some found)
        simp only [hasMass, Bool.and_eq_false_iff] at holds
        have tag := List.find?_some found
        rcases holds with other | none
        · rw [tag] at other
          cases other
        · simpa using none
      refine ⟨made, ?_, valued⟩
      rw [massElement, changed, found, Option.map_some, Option.bind_some, Element.find,
        Element.append, List.find?_append, ← Element.find, absent]
      rfl
    | false =>
      have changed : (setMassElement mass link).children.find? hasMass =
          some (({ tag := "inertial" } : Element).append made) := by
        have once : setMassElement mass link =
            link.append (({ tag := "inertial" } : Element).append made) := by
          simp [setMassElement, has, empty, made]
        have none : link.children.find? hasMass = none := by
          rw [List.find?_eq_none]
          simpa using List.any_eq_false.mp has
        rw [once, Element.append, List.find?_append, none, Option.none_or]
        exact List.find?_cons_of_pos (hasMass_append rfl _)
      exact ⟨made, by rw [massElement, changed]; rfl, valued⟩

/-! ### The saved document -/

theorem mem_findall {root element : Element} {tag : String} :
    element ∈ root.findall tag ↔
      ∃ i : Nat, root.children[i]? = some element ∧ element.isTag tag = true := by
  rw [Element.findall, List.mem_filter, List.mem_iff_getElem?, exists_and_right]

theorem childLink_touchAll (joints : List Joint) (i : Nat) (element : Element) :
    childLink (touchAll joints i element) = childLink element := by
  rw [childLink, childLink, find_touchAll (by decide) (by decide)]

theorem parentLink_touchAll (joints : List Joint) (i : Nat) (element : Element) :
    parentLink (touchAll joints i element) = parentLink element := by
  rw [parentLink, parentLink, find_touchAll (by decide) (by decide)]

theorem isTag_touchAll (joints : List Joint) (i : Nat) (element : Element) (tag : String) :
    (touchAll joints i element).isTag tag = element.isTag tag := by
  rw [Element.isTag, Element.isTag, (touchAll_keeps joints i element).1]

theorem get_touchAll (joints : List Joint) (i : Nat) (element : Element) (key : String) :
    (touchAll joints i element).get key = element.get key :=
  (touchAll_keeps joints i element).2 key

namespace GravityModel
variable {self : GravityModel}

theorem saved_child (self : GravityModel) (i : Nat) :
    self.saved.children[i]? = (self.xmlRoot.children[i]?).map (touchAll self.joints i) :=
  foldl_saveJoint_child ..

theorem saved_findall {tag : String} {element : Element} :
    element ∈ self.saved.findall tag ↔ ∃ (i : Nat) (old : Element), self.xmlRoot.children[i]? = some old ∧
      old.isTag tag = true ∧ element = touchAll self.joints i old := by
  rw [mem_findall]
  constructor
  · rintro ⟨i, there, kind⟩
    rw [saved_child, Option.map_eq_some_iff] at there
    obtain ⟨old, there, rfl⟩ := there
    exact ⟨i, old, there, by simpa [isTag_touchAll] using kind, rfl⟩
  · rintro ⟨i, old, there, kind, rfl⟩
    exact ⟨i, by rw [saved_child, there, Option.map_some], by simpa [isTag_touchAll] using kind⟩

theorem saved_unique {tag : String} {key : Element → Option (List Char)}
    (kept : ∀ i element, key (touchAll self.joints i element) = key element)
    (unique : Unique self.xmlRoot tag key) : Unique self.saved tag key := by
  intro i k first second one two firstTag secondTag same
  rw [saved_child, Option.map_eq_some_iff] at one two
  obtain ⟨first, one, rfl⟩ := one
  obtain ⟨second, two, rfl⟩ := two
  rw [isTag_touchAll] at firstTag secondTag
  rw [kept, kept] at same
  exact unique i k first second one two firstTag secondTag same

/-- A joint's element is saved as it was or with its axis flipped. -/
theorem Sound.touchAll_isJoint (sound : self.Sound) {i : Nat} {element : Element}
    (there : self.xmlRoot.children[i]? = some element) (kind : element.isTag "joint" = true) :
    touchAll self.joints i element = element ∨
      touchAll self.joints i element = flipAxis element := by
  by_cases own : ∃ joint ∈ self.joints, joint.jointEl = some i
  · obtain ⟨joint, member, own⟩ := own
    rw [sound.touchAll_joint member own]
    split
    · exact .inr rfl
    · exact .inl rfl
  · refine .inl (touchAll_untouched element (fun joint member same => own ⟨joint, member, same⟩)
      fun joint member same => ?_)
    obtain ⟨link, place, tag⟩ := sound.linkEl joint member i same
    obtain rfl : element = link := Option.some.inj (there.symm.trans place)
    rw [isTag_other (by decide) kind] at tag
    cases tag

/-- What is saved of a well-formed document is one again. -/
theorem Sound.saved_wellFormed (sound : self.Sound) (wellFormed : WellFormed self.xmlRoot) :
    WellFormed self.saved where
  jointNames := saved_unique (fun i element => get_touchAll _ i element _) wellFormed.jointNames
  linkNames := saved_unique (fun i element => get_touchAll _ i element _) wellFormed.linkNames
  parents := saved_unique (childLink_touchAll self.joints) wellFormed.parents
  child := by
    intro joint member
    obtain ⟨i, old, there, kind, rfl⟩ := saved_findall.mp member
    obtain ⟨link, listed, name, present, child, named⟩ :=
      wellFormed.child old (mem_findall.mpr ⟨i, there, kind⟩)
    obtain ⟨k, place, tag⟩ := mem_findall.mp listed
    exact ⟨_, saved_findall.mpr ⟨k, link, place, tag, rfl⟩, name, present,
      by rw [childLink_touchAll, child], by rw [get_touchAll, named]⟩
  axis := by
    intro joint member axis found
    obtain ⟨i, old, there, kind, rfl⟩ := saved_findall.mp member
    have before := wellFormed.axis old (mem_findall.mpr ⟨i, there, kind⟩)
    rcases sound.touchAll_isJoint there kind with same | flipped
    · rw [same] at found
      exact before axis found
    · rw [flipped] at found
      rcases flipAxis_eq old with same | ⟨text, changed⟩
      · rw [same] at found
        exact before axis found
      · rw [changed, Element.find_modifyChild (f := (·.set "xyz" text)) (fun _ => rfl),
          Option.map_eq_some_iff] at found
        obtain ⟨first, -, rfl⟩ := found
        rw [Element.get_set, Option.isSome_some]

theorem saved_rigid {link name : List Char} :
    Rigid self.saved link name ↔ Rigid self.xmlRoot link name := by
  constructor
  · intro rigid
    induction rigid with
    | refl => exact .refl
    | fixed _ member kind parent child ih =>
      obtain ⟨i, old, there, tag, rfl⟩ := saved_findall.mp member
      rw [get_touchAll] at kind
      rw [parentLink_touchAll] at parent
      rw [childLink_touchAll] at child
      exact .fixed ih (mem_findall.mpr ⟨i, there, tag⟩) kind parent child
  · intro rigid
    induction rigid with
    | refl => exact .refl
    | fixed _ member kind parent child ih =>
      obtain ⟨i, there, tag⟩ := mem_findall.mp member
      refine .fixed ih (saved_findall.mpr ⟨i, _, there, tag, rfl⟩) ?_ ?_ ?_
      · rw [get_touchAll, kind]
      · rw [parentLink_touchAll, parent]
      · rw [childLink_touchAll, child]

end GravityModel

/-! ### One save after a load -/

theorem lastWhere_isSome {α : Type} {p : α → Bool} {xs : List α} {x : α} (member : x ∈ xs)
    (holds : p x = true) : ∃ i, lastWhere p xs = some i := by
  induction xs with
  | nil => cases member
  | cons y ys ih =>
    rw [lastWhere]
    cases inner : lastWhere p ys with
    | some i => exact ⟨i + 1, rfl⟩
    | none =>
      rcases List.mem_cons.mp member with rfl | member
      · exact ⟨0, by simp [holds]⟩
      · obtain ⟨i, found⟩ := ih member
        rw [found] at inner
        cases inner

/-- A model as it is before its first save: loaded of a document that Pinocchio has accepted. -/
structure Unsaved (number : List Char → Option ℚ) (build : Build) (root : Element)
    (original : PinModel) (model : GravityModel) : Prop where
  documented : Documented number build
  wellFormed : WellFormed root
  built : build root = some original
  xmlRoot : model.xmlRoot = root
  joints : ∀ joint ∈ model.joints, ∃ pin ∈ original.joints, pin.nv ≠ 0 ∧
    joint.refs = (Joint.ofPin root pin).refs
  sound : model.Sound

/-- The elements that a joint refers to. -/
structure Placed (root : Element) (joint : Joint) (i : Nat) (element : Element) (k : Nat)
    (link : Element) (name : List Char) : Prop where
  jointEl : joint.jointEl = some i
  there : root.children[i]? = some element
  kind : element.isTag "joint" = true
  named : element.get "name" = some joint.name
  movable : element.get "type" ≠ some "fixed".toList
  child : childLink element = some name
  linkEl : joint.linkEl = some k
  place : root.children[k]? = some link
  tag : link.isTag "link" = true
  linkNamed : link.get "name" = some name

section Unsaved
variable {number : List Char → Option ℚ} {build : Build} {root : Element} {original : PinModel}
  {self : GravityModel}

theorem Unsaved.placed (unsaved : Unsaved number build root original self) {joint : Joint}
    (member : joint ∈ self.joints) :
    ∃ i element k link name, Placed root joint i element k link name := by
  obtain ⟨pin, built, moves, refs⟩ := unsaved.joints joint member
  simp only [Joint.refs, Joint.ofPin, Prod.mk.injEq] at refs
  obtain ⟨name, jointEl, linkEl⟩ := refs
  obtain ⟨element, listed, named, movable⟩ :=
    (unsaved.documented.movable root original unsaved.wellFormed unsaved.built pin.name).mp
      ⟨pin, built, rfl, moves⟩
  obtain ⟨i, there, kind⟩ := mem_findall.mp listed
  have holds : GravityTuner.named "joint" pin.name element = true := by
    simp [GravityTuner.named, kind, named]
  obtain ⟨last, found⟩ := lastWhere_isSome (List.mem_of_getElem? there) holds
  obtain ⟨other, place, same⟩ := lastWhere_spec found
  simp only [GravityTuner.named, Bool.and_eq_true, beq_iff_eq] at same
  obtain rfl := unsaved.wellFormed.jointNames i last element other there place kind same.1
    (named.trans same.2.symm)
  obtain rfl : element = other := Option.some.inj (there.symm.trans place)
  obtain ⟨link, linked, child, present, ofElement, linkNamed⟩ :=
    unsaved.wellFormed.child element listed
  obtain ⟨k, linkPlace, tag⟩ := mem_findall.mp linked
  have holds : GravityTuner.named "link" child link = true := by
    simp [GravityTuner.named, tag, linkNamed]
  obtain ⟨final, linkFound⟩ := lastWhere_isSome (List.mem_of_getElem? linkPlace) holds
  obtain ⟨twin, twinPlace, twinNamed⟩ := lastWhere_spec linkFound
  simp only [GravityTuner.named, Bool.and_eq_true, beq_iff_eq] at twinNamed
  obtain rfl := unsaved.wellFormed.linkNames k final link twin linkPlace twinPlace tag twinNamed.1
    (linkNamed.trans twinNamed.2.symm)
  refine ⟨i, element, k, link, child, jointEl.trans found, there, kind, ?_, movable, ofElement, ?_,
    linkPlace, tag, linkNamed⟩
  · rw [name]
    exact named
  · rw [linkEl]
    simp [urdfLink, urdfJoint, found, there, ofElement, present, linkFound]

theorem Unsaved.notJoint (unsaved : Unsaved number build root original self) {k : Nat}
    {link : Element} (place : root.children[k]? = some link) (tag : link.isTag "link" = true) :
    ∀ joint ∈ self.joints, joint.jointEl ≠ some k := by
  intro joint member same
  obtain ⟨element, there, kind⟩ := unsaved.sound.jointEl joint member k same
  rw [unsaved.xmlRoot] at there
  obtain rfl : link = element := Option.some.inj (place.symm.trans there)
  simp only [named, Bool.and_eq_true] at kind
  rw [isTag_other (by decide) tag] at kind
  cases kind.1

/-- The link of a joint is saved with the joint's mass. -/
theorem Unsaved.touchAll_own (unsaved : Unsaved number build root original self) {joint : Joint}
    (member : joint ∈ self.joints) {i k : Nat} {element link : Element} {name : List Char}
    (placed : Placed root joint i element k link name) :
    touchAll self.joints k link = setMassElement joint.mass link := by
  rcases touchAll_link (unsaved.notJoint placed.place placed.tag) with none | ⟨writer, listed, place, written⟩
  · exact absurd placed.linkEl (none joint member)
  · obtain ⟨m, other, l, twin, child, its⟩ := unsaved.placed listed
    obtain rfl : k = l := Option.some.inj (place.symm.trans its.linkEl)
    obtain rfl : link = twin := Option.some.inj (placed.place.symm.trans its.place)
    obtain rfl : name = child := Option.some.inj (placed.linkNamed.symm.trans its.linkNamed)
    obtain rfl := unsaved.wellFormed.parents i m element other placed.there its.there placed.kind
      its.kind (placed.child.trans its.child.symm)
    obtain rfl := unsaved.sound.unique member listed placed.jointEl its.jointEl
    exact written link

/-- A link that is fixed to another one is saved as it was. -/
theorem Unsaved.touchAll_fixed (unsaved : Unsaved number build root original self) {k : Nat}
    {link : Element} {first name : List Char} (place : root.children[k]? = some link)
    (tag : link.isTag "link" = true) (named : link.get "name" = some name)
    (rigid : Rigid root first name) (other : name ≠ first) :
    touchAll self.joints k link = link := by
  refine touchAll_untouched link (unsaved.notJoint place tag) fun joint member same => ?_
  obtain ⟨i, element, l, twin, child, its⟩ := unsaved.placed member
  obtain rfl : k = l := Option.some.inj (same.symm.trans its.linkEl)
  obtain rfl : link = twin := Option.some.inj (place.symm.trans its.place)
  obtain rfl : name = child := Option.some.inj (named.symm.trans its.linkNamed)
  cases rigid with
  | refl => exact other rfl
  | fixed _ listed fixed _ child =>
    obtain ⟨m, there, kind⟩ := mem_findall.mp listed
    obtain rfl := unsaved.wellFormed.parents i m element _ its.there there its.kind kind
      (its.child.trans child.symm)
    obtain rfl := Option.some.inj (its.there.symm.trans there)
    exact its.movable fixed

theorem sum_shift {α : Type} {f g : α → ℚ} {q : ℚ} {xs ys : List α} {k : Nat}
    (inside : k < xs.length)
    (each : ∀ i : Nat, ys[i]?.map f = xs[i]?.map fun x => g x + if i = k then q else 0) :
    (ys.map f).sum = (xs.map g).sum + q := by
  induction xs generalizing ys k with
  | nil => simp at inside
  | cons x xs ih =>
    have head := each 0
    cases ys with
    | nil => simp at head
    | cons y ys =>
      simp only [List.getElem?_cons_zero, Option.map_some, Option.some.injEq] at head
      cases k with
      | zero =>
        have rest : (ys.map f).sum = (xs.map g).sum := by
          congr 1
          refine List.ext_getElem? fun i => ?_
          have next := each (i + 1)
          simpa using next
        simp only [List.map_cons, List.sum_cons, head, rest, if_true]
        ring
      | succ k =>
        have rest : (ys.map f).sum = (xs.map g).sum + q := by
          refine ih (k := k) (by simpa using inside) fun i => ?_
          have next := each (i + 1)
          simpa using next
        simp only [List.map_cons, List.sum_cons, head, rest]
        simp
        ring

/-- Of the joint's links the saved document has one with the mass written, and the others as they
were. -/
theorem Unsaved.massOf_saved (unsaved : Unsaved number build root original self) {joint : Joint}
    (member : joint ∈ self.joints) {i k : Nat} {element link : Element} {name : List Char}
    (placed : Placed root joint i element k link name) {q : ℚ}
    (written : number (write 6 joint.mass) = some q) :
    massOf number self.saved (Rigid self.saved name) =
      massOf number root (fun other => other ≠ name ∧ Rigid root name other) + q := by
  have inside : k < root.children.length := (List.getElem?_eq_some_iff.mp placed.place).1
  refine sum_shift inside fun m => ?_
  rw [GravityModel.saved_child, unsaved.xmlRoot]
  cases there : root.children[m]? with
  | none => rfl
  | some old =>
    simp only [Option.map_some, Option.some.injEq]
    have kept : ((touchAll self.joints m old).isTag "link" = true ∧
          ∃ its, (touchAll self.joints m old).get "name" = some its ∧ Rigid self.saved name its) ↔
        old.isTag "link" = true ∧ ∃ its, old.get "name" = some its ∧ Rigid root name its := by
      simp only [isTag_touchAll, get_touchAll, GravityModel.saved_rigid, unsaved.xmlRoot]
    by_cases own : m = k
    · subst own
      obtain rfl : link = old := Option.some.inj (placed.place.symm.trans there)
      obtain ⟨mass, found, value⟩ := massElement_setMassElement joint.mass link
      have weight : linkMass number (touchAll self.joints m link) = q := by
        rw [unsaved.touchAll_own member placed, linkMass, found, Option.bind_some, value,
          Option.bind_some, written, Option.getD_some]
      have held : link.isTag "link" = true ∧
          ∃ its, link.get "name" = some its ∧ Rigid root name its :=
        ⟨placed.tag, name, placed.linkNamed, .refl⟩
      have not : ¬ (link.isTag "link" = true ∧
          ∃ its, link.get "name" = some its ∧ its ≠ name ∧ Rigid root name its) := by
        rintro ⟨-, its, named, other, -⟩
        exact other (Option.some.inj (named.symm.trans placed.linkNamed))
      rw [if_pos (kept.mpr held), if_neg not, weight, if_pos rfl, zero_add]
    · rw [if_neg own, add_zero]
      have same : (old.isTag "link" = true ∧
            ∃ its, old.get "name" = some its ∧ Rigid root name its) ↔
          old.isTag "link" = true ∧
            ∃ its, old.get "name" = some its ∧ its ≠ name ∧ Rigid root name its := by
        refine and_congr_right fun tag => exists_congr fun its => and_congr_right fun named => ?_
        refine (and_iff_right_of_imp fun _ => ?_).symm
        rintro rfl
        exact own (unsaved.wellFormed.linkNames m k old link there placed.place tag placed.tag
          (named.trans placed.linkNamed.symm))
      by_cases held : old.isTag "link" = true ∧
          ∃ its, old.get "name" = some its ∧ its ≠ name ∧ Rigid root name its
      · obtain ⟨tag, its, named, other, rigid⟩ := held
        rw [if_pos (kept.mpr (same.mpr ⟨tag, its, named, other, rigid⟩)),
          if_pos ⟨tag, its, named, other, rigid⟩,
          unsaved.touchAll_fixed there tag named rigid other]
      · rw [if_neg (mt kept.mp (mt same.mp held)), if_neg held]

end Unsaved

/-! ### Axes -/

theorem forall₂_of_mapM {α β : Type} {f : α → Option β} {xs : List α} {ys : List β}
    (mapped : xs.mapM f = some ys) : List.Forall₂ (fun x y => f x = some y) xs ys := by
  induction xs generalizing ys with
  | nil =>
    cases mapped
    exact .nil
  | cons x xs ih =>
    rw [List.mapM_cons] at mapped
    simp only [Option.bind_eq_bind, Option.bind_eq_some_iff, Option.pure_def] at mapped
    obtain ⟨y, first, rest, others, shape⟩ := mapped
    cases shape
    exact .cons first (ih others)

theorem negateAxis_self {a : ℚ × ℚ × ℚ} (directed : a ≠ (0, 0, 0)) :
    ¬ SameDirection (negateAxis a) a := by
  rintro ⟨k, positive, same⟩
  obtain ⟨x, y, z⟩ := a
  simp only [negateAxis, Prod.mk.injEq] at same
  refine directed ?_
  have zero {c : ℚ} (stretched : c = k * -c) : c = 0 := by
    have product : (1 + k) * c = 0 := by linarith
    rcases mul_eq_zero.mp product with none | zero
    · linarith
    · exact zero
  rw [zero same.1, zero same.2.1, zero same.2.2]

theorem sameDirection_refl (a : ℚ × ℚ × ℚ) : SameDirection a a :=
  ⟨1, one_pos, by simp⟩

section Axis
variable {number : List Char → Option ℚ} {root saved element kept : Element}
  {before after : PinJoint} {a b : ℚ × ℚ × ℚ}

/-- An axis that is saved as it was is read as it was. -/
theorem axis_unchanged (original : Describes number root before element)
    (rebuilt : Describes number saved after kept) (first : before.axis = some a)
    (second : after.axis = some b) (same : kept.find "axis" = element.find "axis")
    (given : ∀ axis, element.find "axis" = some axis → (axis.get "xyz").isSome = true) : b = a := by
  cases found : element.find "axis" with
  | none => rw [rebuilt.absent b second (same.trans found), original.absent a first found]
  | some axis =>
    obtain ⟨text, written⟩ := Option.isSome_iff_exists.mp (given axis found)
    have read := (original.axis a first axis found text written).symm.trans
      (rebuilt.axis b second axis (same.trans found) text written)
    simp only [Option.some.injEq, List.cons.injEq, and_true] at read
    exact (Prod.ext read.1 (Prod.ext read.2.1 read.2.2)).symm

/-- A flipped axis points against the loaded one where rounding keeps its direction. -/
theorem axis_flipped {axis : Element} {text : List Char} {values : List Double}
    (agrees : ∀ text v q, read text = some v → number text = some q → v.value = some q)
    (original : Describes number root before element)
    (rebuilt : Describes number saved after (flipAxis element)) (first : before.axis = some a)
    (second : after.axis = some b) (found : element.find "axis" = some axis)
    (written : axis.get "xyz" = some text) (readable : components text = some values) :
    SameDirection (negateAxis a) b ↔ KeepsDirection values := by
  have numbers := forall₂_of_mapM (original.axis a first axis found text written)
  have parsed := forall₂_of_mapM readable
  have same : xyz axis = text := by rw [xyz, written, Option.getD_some]
  have flipped := find_flipAxis found (by rw [same]; exact readable)
  have reread := rebuilt.axis b second _ flipped _ (Element.get_set ..)
  rw [reversed, Words.split_join (by simpa using fun v _ => word_write _)] at reread
  have negated := forall₂_of_mapM reread
  obtain ⟨x, y, z⟩ := a
  obtain ⟨p, q, r⟩ := b
  have three : ∃ u v w, values = [u, v, w] ∧ u.value = some x ∧ v.value = some y ∧
      w.value = some z := by
    generalize Words.split text = words at numbers parsed
    cases numbers with
    | cons one numbers =>
      cases numbers with
      | cons two numbers =>
        cases numbers with
        | cons three numbers =>
          cases numbers
          cases parsed with
          | cons u parsed =>
            cases parsed with
            | cons v parsed =>
              cases parsed with
              | cons w parsed =>
                cases parsed
                exact ⟨_, _, _, rfl, agrees _ _ _ u one, agrees _ _ _ v two, agrees _ _ _ w three⟩
  obtain ⟨u, v, w, rfl, ux, vy, wz⟩ := three
  have opposite {v : Double} {c : ℚ} (read : number (write 6 v.neg) = some c) :
      (rounded 6 v).value = some (-c) := by
    have value := agrees _ _ _ (read_write (by decide) v.neg) read
    rw [rounded_neg, Double.value_neg, Option.map_eq_some_iff] at value
    obtain ⟨d, value, rfl⟩ := value
    rw [value, neg_neg]
  simp only [List.map_cons, List.map_nil, List.forall₂_cons, List.forall₂_nil_left_iff] at negated
  obtain ⟨one, two, three, -⟩ := negated
  simp only [SameDirection, KeepsDirection, negateAxis, List.mem_cons, List.not_mem_nil, or_false,
    forall_eq_or_imp, forall_eq, ux, vy, wz, opposite one, opposite two, opposite three,
    Option.map_some, Option.some.injEq, Prod.mk.injEq]
  refine exists_congr fun k => and_congr_right fun _ => ?_
  constructor
  · rintro ⟨rfl, rfl, rfl⟩
    exact ⟨by ring, by ring, by ring⟩
  · rintro ⟨first, second, third⟩
    exact ⟨by linarith, by linarith, by linarith⟩

end Axis

/-! ### The round trip -/

def Call.isSave : Call → Bool
  | .save .. => true
  | .setMass .. | .setScale .. => false

/-- Changes of parameters leave the tree as it was loaded. -/
theorem run_settings_xmlRoot (model : GravityModel) {calls : List Call}
    (settings : ∀ call ∈ calls, call.isSave = false) :
    (model.run calls).xmlRoot = model.xmlRoot := by
  induction calls generalizing model with
  | nil => rfl
  | cons call calls ih =>
    have step : (model.call call).xmlRoot = model.xmlRoot := by
      cases call with
      | setMass joint mass =>
        simp only [GravityModel.call, GravityModel.setMass]
        split_ifs <;> rfl
      | setScale joint scale =>
        simp only [GravityModel.call, GravityModel.setScale]
        split <;> rfl
      | save path opens => exact absurd (settings _ List.mem_cons_self) (by simp [Call.isSave])
    exact (ih (model.call call) fun next member => settings next (List.mem_cons_of_mem _ member)).trans
      step

theorem unsaved_of_load {number : List Char → Option ℚ} {build : Build} {urdfPath : List Char}
    {root : Element} {original : PinModel} {model : GravityModel}
    (documented : Documented number build) (wellFormed : WellFormed root)
    (built : build root = some original)
    (loaded : load build urdfPath (.document root) = .ok model) {calls : List Call}
    (settings : ∀ call ∈ calls, call.isSave = false) :
    Unsaved number build root original (model.run calls) := by
  have sound := run_sound loaded calls
  obtain ⟨document, accepted, shape, same, -, xmlRoot, joints⟩ := load_ok loaded
  cases shape
  obtain rfl := Option.some.inj (built.symm.trans same)
  refine ⟨documented, wellFormed, built, (run_settings_xmlRoot model settings).trans xmlRoot, ?_, sound⟩
  intro joint member
  have listed := List.mem_map_of_mem (f := Joint.refs) member
  rw [(model.run_keeps calls).refs, joints, List.map_map] at listed
  obtain ⟨pin, kept, refs⟩ := List.mem_map.mp listed
  have moves := List.mem_filter.mp kept
  exact ⟨pin, moves.1, by simpa using moves.2, refs.symm⟩

/-- Two elements of a joint's name are one. -/
theorem Placed.unique {root : Element} {joint : Joint} {i k : Nat} {element link other : Element}
    {name : List Char} (placed : Placed root joint i element k link name)
    (wellFormed : WellFormed root) (its : ElementOf root joint other) : other = element := by
  obtain ⟨m, there, kind⟩ := mem_findall.mp its.1
  obtain rfl := wellFormed.jointNames i m element other placed.there there placed.kind kind
    (placed.named.trans its.2.symm)
  exact Option.some.inj (there.symm.trans placed.there)

section RoundTrip
variable {number : List Char → Option ℚ} {build : Build} {root : Element}
  {original rebuilt : PinModel} {self fresh : GravityModel} {again : List Char}

/-- The mass comes back where no other link of the joint's has one. -/
theorem Unsaved.mass_iff (unsaved : Unsaved number build root original self)
    (rebuilds : build self.saved = some rebuilt)
    (reloaded : load build again (.document self.saved) = .ok fresh) {joint : Joint}
    (member : joint ∈ self.joints) {i k : Nat} {element link : Element} {name : List Char}
    (placed : Placed root joint i element k link name) :
    (∃ new ∈ fresh.joints, new.name = joint.name ∧
        new.mass.value = (rounded 6 joint.mass).value) ↔
      massOf number root (fun other => other ≠ name ∧ Rigid root name other) = 0 := by
  have saved := unsaved.sound.saved_wellFormed (unsaved.xmlRoot ▸ unsaved.wellFormed)
  have there : self.xmlRoot.children[i]? = some element := unsaved.xmlRoot ▸ placed.there
  have place : self.xmlRoot.children[k]? = some link := unsaved.xmlRoot ▸ placed.place
  -- the number written is read again, as the six digits of the mass
  obtain ⟨mass, found, value⟩ := massElement_setMassElement joint.mass link
  rw [← unsaved.touchAll_own member placed] at found
  obtain ⟨text, q, given, read⟩ := unsaved.documented.masses _ rebuilt saved rebuilds _
    (GravityModel.saved_findall.mpr ⟨k, link, place, placed.tag, rfl⟩) mass found
  obtain rfl : write 6 joint.mass = text := Option.some.inj (value.symm.trans given)
  have digits : (rounded 6 joint.mass).value = some q :=
    unsaved.documented.agrees _ _ _ (read_write (by decide) joint.mass) read
  have listed : touchAll self.joints i element ∈ self.saved.findall "joint" :=
    GravityModel.saved_findall.mpr ⟨i, element, there, placed.kind, rfl⟩
  have named : (touchAll self.joints i element).get "name" = some joint.name := by
    rw [get_touchAll, placed.named]
  have total := unsaved.massOf_saved member placed read
  have weighs : ∀ pin ∈ rebuilt.joints, pin.nv ≠ 0 → pin.name = joint.name →
      pin.mass = massOf number root (fun other => other ≠ name ∧ Rigid root name other) + q := by
    intro pin known moves same
    rw [← total]
    exact (unsaved.documented.joints _ rebuilt saved rebuilds pin known moves _ listed
      (by rw [named, same])).mass name (by rw [childLink_touchAll, placed.child])
  obtain ⟨document, accepted, shape, same, -, -, joints⟩ := load_ok reloaded
  cases shape
  obtain rfl := Option.some.inj (rebuilds.symm.trans same)
  constructor
  · rintro ⟨new, known, its, back⟩
    rw [joints] at known
    obtain ⟨pin, kept, rfl⟩ := List.mem_map.mp known
    have moves := List.mem_filter.mp kept
    have weight := weighs pin moves.1 (by simpa using moves.2) its
    rw [digits] at back
    have equal : pin.mass = q := by simpa [Joint.ofPin, Double.value_ofRat] using back
    linarith
  · intro none
    obtain ⟨pin, known, same, moves⟩ :=
      (unsaved.documented.movable _ rebuilt saved rebuilds joint.name).mpr
        ⟨_, listed, named, by rw [get_touchAll]; exact placed.movable⟩
    refine ⟨Joint.ofPin self.saved pin, ?_, same, ?_⟩
    · rw [joints]
      exact List.mem_map_of_mem (List.mem_filter.mpr ⟨known, by simpa using moves⟩)
    · rw [digits, Joint.ofPin, Double.value_ofRat, weighs pin known moves same, none, zero_add]

/-- The axis comes back where it may stay as it is, or can be reversed without a loss. -/
theorem Unsaved.axis_iff (unsaved : Unsaved number build root original self)
    (directed : ∀ joint ∈ original.joints, joint.axis ≠ some (0, 0, 0))
    (rebuilds : build self.saved = some rebuilt) {joint : Joint}
    (member : joint ∈ self.joints) {i k : Nat} {element link : Element} {name : List Char}
    (placed : Placed root joint i element k link name) :
    (∀ before ∈ original.joints, before.nv ≠ 0 → before.name = joint.name →
      ∀ a, before.axis = some a → ∃ after ∈ rebuilt.joints, after.nv ≠ 0 ∧
        after.name = joint.name ∧ ∃ b, after.axis = some b ∧
          SameDirection (if joint.scale.lessThanZero then negateAxis a else a) b) ↔
      (joint.scale.lessThanZero = true → element.get "type" ≠ some "floating".toList →
        ∃ axis text values, element.find "axis" = some axis ∧ axis.get "xyz" = some text ∧
          components text = some values ∧ KeepsDirection values) := by
  have saved := unsaved.sound.saved_wellFormed (unsaved.xmlRoot ▸ unsaved.wellFormed)
  have there : self.xmlRoot.children[i]? = some element := unsaved.xmlRoot ▸ placed.there
  have rewritten := unsaved.sound.touchAll_joint member placed.jointEl element
  have listed : touchAll self.joints i element ∈ self.saved.findall "joint" :=
    GravityModel.saved_findall.mpr ⟨i, element, there, placed.kind, rfl⟩
  have named : (touchAll self.joints i element).get "name" = some joint.name := by
    rw [get_touchAll, placed.named]
  have known : element ∈ root.findall "joint" := mem_findall.mpr ⟨i, placed.there, placed.kind⟩
  have given := unsaved.wellFormed.axis element known
  have describesBefore {before : PinJoint} (its : before ∈ original.joints) (moves : before.nv ≠ 0)
      (same : before.name = joint.name) : Describes number root before element :=
    unsaved.documented.joints root original unsaved.wellFormed unsaved.built before its moves
      element known (by rw [placed.named, same])
  have describesAfter {after : PinJoint} (its : after ∈ rebuilt.joints) (moves : after.nv ≠ 0)
      (same : after.name = joint.name) :
      Describes number self.saved after (touchAll self.joints i element) :=
    unsaved.documented.joints _ rebuilt saved rebuilds after its moves _ listed
      (by rw [named, same])
  constructor
  · intro back negative moving
    obtain ⟨before, its, moves, refs⟩ := unsaved.joints joint member
    have same : before.name = joint.name := (congrArg Prod.fst refs).symm
    have first := describesBefore its moves same
    obtain ⟨a, some⟩ := Option.ne_none_iff_exists'.mp (mt first.floating.mp moving)
    obtain ⟨after, its_after, moves_after, same_after, b, second, opposite⟩ :=
      back before its moves same a some
    have later := describesAfter its_after moves_after same_after
    have nonzero : a ≠ (0, 0, 0) := fun zero => directed before its (zero ▸ some)
    simp only [negative, if_true] at opposite rewritten
    rw [rewritten] at later
    have stuck (unflipped : flipAxis element = element) : False := by
      obtain rfl := axis_unchanged first later some second (by rw [unflipped]) given
      exact negateAxis_self nonzero opposite
    cases found : element.find "axis" with
    | none => exact (stuck (by simp [flipAxis, found])).elim
    | some axis =>
      obtain ⟨text, written⟩ := Option.isSome_iff_exists.mp (given axis found)
      have shown : xyz axis = text := by rw [xyz, written, Option.getD_some]
      cases readable : components text with
      | none => exact (stuck (by simp [flipAxis, found, shown, readable])).elim
      | some values =>
        exact ⟨axis, text, values, rfl, written, readable,
          (axis_flipped unsaved.documented.agrees first later some second found written
            readable).mp opposite⟩
  · intro reversible before its moves same a some
    have first := describesBefore its moves same
    have moving : element.get "type" ≠ .some "floating".toList := by
      intro floating
      rw [first.floating.mpr floating] at some
      cases some
    obtain ⟨after, its_after, same_after, moves_after⟩ :=
      (unsaved.documented.movable _ rebuilt saved rebuilds joint.name).mpr
        ⟨_, listed, named, by rw [get_touchAll]; exact placed.movable⟩
    have later := describesAfter its_after moves_after same_after
    have present : after.axis ≠ none := by
      rw [Ne, later.floating, get_touchAll]
      exact moving
    obtain ⟨b, second⟩ := Option.ne_none_iff_exists'.mp present
    refine ⟨after, its_after, moves_after, same_after, b, second, ?_⟩
    cases negative : joint.scale.lessThanZero with
    | false =>
      simp only [negative, Bool.false_eq_true, if_false] at rewritten ⊢
      rw [rewritten] at later
      rw [axis_unchanged first later some second rfl given]
      exact sameDirection_refl a
    | true =>
      simp only [negative, if_true] at rewritten ⊢
      rw [rewritten] at later
      obtain ⟨axis, text, values, found, written, readable, keeps⟩ := reversible negative moving
      exact (axis_flipped unsaved.documented.agrees first later some second found written
        readable).mpr keeps

end RoundTrip

/-- Numerals are read as they are in the model. -/
def plainNumber (text : List Char) : Option ℚ := (read text).bind Double.value

open Classical in
/-- Of this document alone something is built. -/
noncomputable def buildOnly (document : Element) (model : PinModel) : Build := fun root =>
  if root = document then some model else none

theorem buildOnly_self (document : Element) (model : PinModel) :
    buildOnly document model document = some model := if_pos rfl

theorem buildOnly_some {document root : Element} {model built : PinModel}
    (some : buildOnly document model root = .some built) : root = document ∧ model = built := by
  unfold buildOnly at some
  split at some
  · rename_i same
    exact ⟨same, Option.some.inj some⟩
  · cases some

def elbowPin (a : ℚ × ℚ × ℚ) : PinModel where
  nq := 1
  joints := [{ name := ['e', 'l', 'b', 'o', 'w'], nv := 1, mass := 2, axis := some a }]
  distinct := List.nodup_singleton _

theorem elbow_children {axis : List Element} {i : Nat} {element : Element}
    (there : (elbow axis).children[i]? = some element) :
    (i = 0 ∧ element.isTag "joint" = true ∧ element.isTag "link" = false ∧
      element.get "name" = some ['e', 'l', 'b', 'o', 'w'] ∧
      element.get "type" = some "revolute".toList ∧
      childLink element = some ['f', 'o', 'r', 'e'] ∧
      element.find "axis" = axis.find? (Element.isTag "axis")) ∨
    (i = 1 ∧ element.isTag "joint" = false ∧ element.isTag "link" = true ∧
      element.get "name" = some ['a', 'r', 'm'] ∧ massElement element = none) ∨
    (i = 2 ∧ element.isTag "joint" = false ∧ element.isTag "link" = true ∧
      element.get "name" = some ['f', 'o', 'r', 'e'] ∧
      massElement element = some { tag := "mass", attributes := [("value", ['2'])] }) := by
  rcases i with _ | _ | _ | i
  · obtain rfl := Option.some.inj there
    refine .inl ⟨rfl, rfl, rfl, rfl, rfl, rfl, ?_⟩
    rfl
  · obtain rfl := Option.some.inj there
    exact .inr (.inl ⟨rfl, rfl, rfl, rfl, rfl⟩)
  · obtain rfl := Option.some.inj there
    exact .inr (.inr ⟨rfl, rfl, rfl, rfl, rfl⟩)
  · simp [elbow] at there

theorem elbow_wellFormed {axis : List Element}
    (given : ∀ element ∈ axis, (element.get "xyz").isSome = true) :
    WellFormed (elbow axis) where
  jointNames := by
    intro i k first second one two firstTag secondTag _
    rcases elbow_children one with ⟨rfl, -⟩ | ⟨-, other, -⟩ | ⟨-, other, -⟩
    · rcases elbow_children two with ⟨rfl, -⟩ | ⟨-, other, -⟩ | ⟨-, other, -⟩
      · rfl
      · simp [other] at secondTag
      · simp [other] at secondTag
    · simp [other] at firstTag
    · simp [other] at firstTag
  linkNames := by
    intro i k first second one two firstTag secondTag same
    rcases elbow_children one with ⟨-, -, other, -⟩ | ⟨rfl, -, -, name, -⟩ | ⟨rfl, -, -, name, -⟩
    · simp [other] at firstTag
    · rcases elbow_children two with ⟨-, -, other, -⟩ | ⟨rfl, -⟩ | ⟨rfl, -, -, names, -⟩
      · simp [other] at secondTag
      · rfl
      · simp [name, names] at same
    · rcases elbow_children two with ⟨-, -, other, -⟩ | ⟨rfl, -, -, names, -⟩ | ⟨rfl, -⟩
      · simp [other] at secondTag
      · simp [name, names] at same
      · rfl
  parents := by
    intro i k first second one two firstTag secondTag _
    rcases elbow_children one with ⟨rfl, -⟩ | ⟨-, other, -⟩ | ⟨-, other, -⟩
    · rcases elbow_children two with ⟨rfl, -⟩ | ⟨-, other, -⟩ | ⟨-, other, -⟩
      · rfl
      · simp [other] at secondTag
      · simp [other] at secondTag
    · simp [other] at firstTag
    · simp [other] at firstTag
  child := by
    intro joint member
    obtain ⟨i, there, kind⟩ := mem_findall.mp member
    refine ⟨_, mem_findall.mpr ⟨2, rfl, rfl⟩, ['f', 'o', 'r', 'e'], by simp, ?_, rfl⟩
    rcases elbow_children there with ⟨-, -, -, -, -, child, -⟩ | ⟨-, other, -⟩ | ⟨-, other, -⟩
    · exact child
    · simp [other] at kind
    · simp [other] at kind
  axis := by
    intro joint member element found
    obtain ⟨i, there, kind⟩ := mem_findall.mp member
    rcases elbow_children there with ⟨-, -, -, -, -, -, axes⟩ | ⟨-, other, -⟩ | ⟨-, other, -⟩
    · rw [axes] at found
      exact given element (List.mem_of_find?_eq_some found)
    · simp [other] at kind
    · simp [other] at kind

theorem elbow_joint {axis : List Element} {element : Element}
    (member : element ∈ (elbow axis).findall "joint") :
    element.get "name" = some ['e', 'l', 'b', 'o', 'w'] ∧
      element.get "type" = some "revolute".toList ∧
      childLink element = some ['f', 'o', 'r', 'e'] ∧
      element.find "axis" = axis.find? (Element.isTag "axis") := by
  obtain ⟨i, there, kind⟩ := mem_findall.mp member
  rcases elbow_children there with ⟨-, -, -, facts⟩ | ⟨-, other, -⟩ | ⟨-, other, -⟩
  · exact facts
  · simp [other] at kind
  · simp [other] at kind

theorem elbow_rigid {axis : List Element} {name : List Char} :
    Rigid (elbow axis) ['f', 'o', 'r', 'e'] name ↔ name = ['f', 'o', 'r', 'e'] := by
  constructor
  · intro rigid
    cases rigid with
    | refl => rfl
    | fixed _ member fixed =>
      rw [(elbow_joint member).2.1] at fixed
      exact absurd fixed (by decide)
  · rintro rfl
    exact .refl

theorem elbow_mass {axis : List Element} :
    massOf plainNumber (elbow axis) (Rigid (elbow axis) ['f', 'o', 'r', 'e']) = 2 := by
  obtain ⟨joint, arm, fore, shape⟩ : ∃ joint arm fore,
      (elbow axis).children = [joint, arm, fore] := ⟨_, _, _, rfl⟩
  have placed (i : Nat) (element : Element) (there : (elbow axis).children[i]? = some element) :=
    elbow_children there
  simp only [shape] at placed
  have first : joint.isTag "link" = false := by
    rcases placed 0 joint rfl with ⟨-, -, other, -⟩ | ⟨other, -⟩ | ⟨other, -⟩
    · exact other
    · cases other
    · cases other
  have second : arm.get "name" = some ['a', 'r', 'm'] := by
    rcases placed 1 arm rfl with ⟨other, -⟩ | ⟨-, -, -, name, -⟩ | ⟨other, -⟩
    · cases other
    · exact name
    · cases other
  have third : fore.isTag "link" = true ∧ fore.get "name" = some ['f', 'o', 'r', 'e'] ∧
      linkMass plainNumber fore = 2 := by
    rcases placed 2 fore rfl with ⟨other, -⟩ | ⟨other, -⟩ | ⟨-, -, tag, name, mass⟩
    · cases other
    · cases other
    · refine ⟨tag, name, ?_⟩
      rw [linkMass, mass]
      decide +kernel
  rw [massOf, shape]
  simp [first, second, third, elbow_rigid]

theorem elbow_documented {axis : List Element} {a : ℚ × ℚ × ℚ}
    (absent : axis.find? (Element.isTag "axis") = none → a = (1, 0, 0))
    (present : ∀ element, axis.find? (Element.isTag "axis") = some element →
      ∀ text, element.get "xyz" = some text →
        (Words.split text).mapM plainNumber = some [a.1, a.2.1, a.2.2]) :
    Documented plainNumber (buildOnly (elbow axis) (elbowPin a)) where
  agrees := by
    intro text v q parsed number
    simpa [plainNumber, parsed] using number
  movable := by
    intro root model _ built name
    obtain ⟨rfl, rfl⟩ := buildOnly_some built
    constructor
    · rintro ⟨joint, member, rfl, -⟩
      obtain rfl := List.mem_singleton.mp member
      have turning : some "revolute".toList ≠ some "fixed".toList := by decide
      exact ⟨_, mem_findall.mpr ⟨0, rfl, rfl⟩, rfl, turning⟩
    · rintro ⟨element, member, named, -⟩
      obtain rfl := Option.some.inj (named.symm.trans (elbow_joint member).1)
      exact ⟨_, List.mem_cons_self, rfl, one_ne_zero⟩
  masses := by
    intro root model _ built link member element found
    obtain ⟨rfl, rfl⟩ := buildOnly_some built
    obtain ⟨i, there, kind⟩ := mem_findall.mp member
    rcases elbow_children there with ⟨-, -, other, -⟩ | ⟨-, -, -, -, none⟩ | ⟨-, -, -, -, mass⟩
    · simp [other] at kind
    · rw [none] at found
      cases found
    · obtain rfl := Option.some.inj (found.symm.trans mass)
      exact ⟨['2'], 2, rfl, by decide +kernel⟩
  joints := by
    intro root model _ built joint member _ element listed _
    obtain ⟨rfl, rfl⟩ := buildOnly_some built
    obtain rfl := List.mem_singleton.mp member
    obtain ⟨-, type, child, axes⟩ := elbow_joint listed
    refine ⟨fun link its => ?_, ?_, fun b some none => ?_, fun b some written found => ?_⟩
    · obtain rfl := Option.some.inj (its.symm.trans child)
      exact elbow_mass.symm
    · rw [type]
      exact iff_of_false (by simp) (by decide)
    · obtain rfl := Option.some.inj some
      exact absent (axes.symm.trans none)
    · obtain rfl := Option.some.inj some
      exact present written (axes.symm.trans found)

theorem write_two : write 6 (.ofRat 2) = ['2'] := by decide +kernel

/-- The axis that is given for the joint turning about z. -/
theorem elbow_about_z :
    Documented plainNumber (buildOnly elbowRoot (elbowPin (0, 0, 1))) := by
  refine elbow_documented (fun none => ?_) fun element found text written => ?_
  · cases none
  · obtain rfl := Option.some.inj found
    obtain rfl := Option.some.inj written
    decide +kernel

theorem elbow_saved : elbowModel.saved = elbowRoot := by
  simp [GravityModel.saved, elbowModel, saveJoint, modifyAt, Double.lessThanZero, elbowRoot,
    elbow, setMassElement, write_two, hasMass, Element.isTag, Element.find, Element.modifyChild,
    modifyFirst, Element.set, assign]

theorem elbow_alone {axis : List Element} :
    massOf plainNumber (elbow axis)
      (fun name => name ≠ ['f', 'o', 'r', 'e'] ∧ Rigid (elbow axis) ['f', 'o', 'r', 'e'] name) = 0 := by
  refine List.sum_eq_zero fun weight member => ?_
  obtain ⟨element, -, rfl⟩ := List.mem_map.mp member
  refine if_neg ?_
  rintro ⟨-, name, -, other, rigid⟩
  exact other (elbow_rigid.mp rigid)

/-- The joint without an axis, which turns about x. -/
def bareModel : GravityModel where
  joints := [{ name := ['e', 'l', 'b', 'o', 'w'], mass := .ofRat 2, jointEl := some 0,
               linkEl := some 2 }]
  xmlRoot := elbow []
  path := ['a']

def bareReversed : Joint :=
  { name := ['e', 'l', 'b', 'o', 'w'], mass := .ofRat 2, scale := .ofRat (-1), jointEl := some 0,
    linkEl := some 2 }

end Florid.GravityTuner
