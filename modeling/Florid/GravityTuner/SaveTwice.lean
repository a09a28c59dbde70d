import Florid.GravityTuner.Save

/-! Saves in a row without a change of a parameter between them. Masses are written the same each
time; an axis of a joint with a negative scale is turned around by each save again. -/
namespace Florid.GravityTuner
open Xml Decimal

/-! ### Masses -/

theorem hasMass_modify {inertial : Element} (value : List Char)
    (has : hasMass inertial = true) :
    hasMass (inertial.modifyChild (Element.isTag "mass") (·.set "value" value)) = true := by
  simp only [hasMass, Bool.and_eq_true] at has ⊢
  refine ⟨has.1, ?_⟩
  rw [Element.find_modifyChild (f := (·.set "value" value)) (fun _ => rfl), Option.isSome_map]
  exact has.2

theorem hasMass_append {inertial : Element} (tag : inertial.isTag "inertial" = true)
    (value : List Char) :
    hasMass (inertial.append (({ tag := "mass" } : Element).set "value" value)) = true := by
  simp only [hasMass, Bool.and_eq_true]
  refine ⟨tag, ?_⟩
  simp [Element.find, Element.append, List.find?_append, Element.isTag]

/-- The element made for a mass takes its next value in place. -/
theorem append_mass_modify {inertial : Element} (none : hasMass inertial = false)
    (tag : inertial.isTag "inertial" = true) (first second : List Char) :
    (inertial.append (({ tag := "mass" } : Element).set "value" first)).modifyChild
        (Element.isTag "mass") (·.set "value" second) =
      inertial.append (({ tag := "mass" } : Element).set "value" second) := by
  have absent : inertial.children.any (Element.isTag "mass") = false := by
    simp only [hasMass, tag, Bool.true_and, Element.find] at none
    simpa using none
  simp only [Element.modifyChild, Element.append, modifyFirst_append_of_none absent]
  simp [Element.isTag, Element.set, assign]

/-- The mass that is written last stays. -/
theorem setMassElement_setMassElement (first second : Double) (link : Element) :
    setMassElement second (setMassElement first link) = setMassElement second link := by
  cases has : link.children.any hasMass with
  | true =>
    have once (mass : Double) : setMassElement mass link = link.modifyChild hasMass
        (·.modifyChild (Element.isTag "mass") (·.set "value" (write 6 mass))) := by
      simp [setMassElement, has]
    have still : (setMassElement first link).children.any hasMass = true := by
      rw [once]
      exact (any_modifyFirst (fun _ => hasMass_modify _) _).trans has
    rw [setMassElement, if_pos still, once, once,
      Element.modifyChild_modifyChild fun _ => hasMass_modify _]
    congr 1
    funext inertial
    exact inertial.modifyChild_set_set "mass" "value" _ _
  | false =>
    cases empty : (link.find "inertial").isSome with
    | true =>
      have once (mass : Double) : setMassElement mass link =
          link.modifyChild (Element.isTag "inertial")
            (·.append (({ tag := "mass" } : Element).set "value" (write 6 mass))) := by
        simp [setMassElement, has, empty]
      have made : (setMassElement first link).children.any hasMass = true := by
        obtain ⟨inertial, found⟩ := Option.isSome_iff_exists.mp empty
        have changed : (setMassElement first link).find "inertial" =
            some (inertial.append (({ tag := "mass" } : Element).set "value" (write 6 first))) := by
          rw [once, Element.find_modifyChild (f := (·.append _)) (fun _ => rfl), found,
            Option.map_some]
        exact List.any_eq_true.mpr ⟨_, List.mem_of_find?_eq_some changed,
          hasMass_append (List.find?_some found) _⟩
      rw [setMassElement, if_pos made, once, once]
      simp only [Element.modifyChild]
      rw [modifyFirst_modifyFirst_of_none (fun _ tag => hasMass_append tag _) has]
      congr 1
      refine modifyFirst_congr fun inertial member tag => ?_
      have none : hasMass inertial = false := by
        simpa using List.any_eq_false.mp has inertial member
      exact append_mass_modify none tag _ _
    | false =>
      have once (mass : Double) : setMassElement mass link = link.append
          (({ tag := "inertial" } : Element).append
            (({ tag := "mass" } : Element).set "value" (write 6 mass))) := by
        simp [setMassElement, has, empty]
      have made : (setMassElement first link).children.any hasMass = true := by
        rw [once]
        exact List.any_eq_true.mpr ⟨_, List.mem_append_right _ List.mem_cons_self,
          hasMass_append rfl _⟩
      rw [setMassElement, if_pos made, once, once]
      simp only [Element.modifyChild, Element.append]
      rw [modifyFirst_append_of_none has]
      simp [hasMass, Element.isTag, Element.find, modifyFirst, Element.set, assign]

/-! ### Axes -/

theorem isSpace_written {c : Char} (written : Written c) : Words.isSpace c = false := by
  have range : 0x20 < c.toNat ∧ c.toNat < 0x85 := by
    rcases written with digit | other
    · have range : 48 ≤ c.toNat ∧ c.toNat ≤ 57 := by
        simpa [Char.isDigit, UInt32.le_iff_toNat_le] using digit
      omega
    · simp only [List.mem_cons, List.not_mem_nil, or_false] at other
      rcases other with rfl | rfl | rfl | rfl | rfl | rfl | rfl | rfl <;> decide
  exact Words.isSpace_ascii range.1 range.2

theorem word_write (v : Double) : Words.Word (write 6 v) :=
  ⟨write_ne_nil 6 v, fun c member => isSpace_written (written_write 6 v c member)⟩

/-- A reversed axis is read as the components it was written with, rounded to six digits. -/
theorem components_reversed (values : List Double) :
    components (reversed values) = some (values.map fun v => rounded 6 v.neg) := by
  rw [components, reversed, Words.split_join (by simpa using fun v _ => word_write _)]
  induction values with
  | nil => rfl
  | cons v values ih =>
    rw [List.map_cons, List.mapM_cons, read_write (by decide), ih]
    rfl

/-- Reversing twice gives the text of reversing once where every component is a NaN. -/
theorem reversed_again (values : List Double) :
    reversed (values.map fun v => rounded 6 v.neg) = reversed values ↔ ∀ v ∈ values, v = .nan := by
  constructor
  · intro same v member
    by_contra number
    have words := congrArg Words.split same
    rw [reversed, reversed, Words.split_join (by simpa using fun v _ => word_write _),
      Words.split_join (by simpa using fun v _ => word_write _), List.map_map,
      List.map_inj_left] at words
    have texts := words v member
    have negated : v.neg ≠ .nan := by cases v <;> simp_all [Double.neg]
    have head := write_head 6 (rounded 6 v.neg).neg
    rw [show write 6 (rounded 6 v.neg).neg = write 6 v.neg from texts, write_head,
      Double.negative_neg (mt rounded_nan.mp negated), negative_rounded] at head
    cases sign : v.neg.negative <;> simp [sign] at head
  · intro all
    have each : values.map (fun v => rounded 6 v.neg) = values := by
      refine (List.map_congr_left fun v member => ?_).trans (List.map_id values)
      rw [all v member]
      rfl
    rw [each]

/-- An axis with a sign to lose: components that can be read, and not only NaNs. -/
def Directed (joint : Element) : Prop :=
  ∃ axis values, joint.find "axis" = some axis ∧ components (xyz axis) = some values ∧
    ∃ v ∈ values, v ≠ .nan

theorem flipAxis_of {joint axis : Element} {values : List Double}
    (found : joint.find "axis" = some axis) (readable : components (xyz axis) = some values) :
    flipAxis joint =
      joint.modifyChild (Element.isTag "axis") (·.set "xyz" (reversed values)) := by
  simp only [flipAxis, found, readable]

/-- What is found of an axis once it has been flipped. -/
theorem find_flipAxis {joint axis : Element} {values : List Double}
    (found : joint.find "axis" = some axis) (readable : components (xyz axis) = some values) :
    (flipAxis joint).find "axis" = some (axis.set "xyz" (reversed values)) := by
  rw [flipAxis_of found readable,
    Element.find_modifyChild (f := (·.set "xyz" (reversed values))) (fun _ => rfl), found,
    Option.map_some]

theorem xyz_set (axis : Element) (text : List Char) : xyz (axis.set "xyz" text) = text := by
  rw [xyz, Element.get_set, Option.getD_some]

/-- Flipping an axis once more changes it exactly where it has a sign. -/
theorem flipAxis_flipAxis (joint : Element) :
    flipAxis (flipAxis joint) = flipAxis joint ↔ ¬ Directed joint := by
  cases found : joint.find "axis" with
  | none =>
    have kept : flipAxis joint = joint := by simp [flipAxis, found]
    simp [kept, Directed, found]
  | some axis =>
    cases readable : components (xyz axis) with
    | none =>
      have kept : flipAxis joint = joint := by simp [flipAxis, found, readable]
      simp [kept, Directed, found, readable]
    | some values =>
      have directed : Directed joint ↔ ∃ v ∈ values, v ≠ .nan := by
        simp [Directed, found, readable]
      have next := find_flipAxis found readable
      have again : components (xyz (axis.set "xyz" (reversed values))) =
          some (values.map fun v => rounded 6 v.neg) := by
        rw [xyz_set, components_reversed]
      rw [directed]
      push Not
      rw [← reversed_again]
      constructor
      · intro same
        have axes := congrArg (fun element => (element.find "axis").map xyz) same
        simpa [find_flipAxis next again, next, xyz_set] using axes
      · intro same
        rw [flipAxis_of next again, same, flipAxis_of found readable, Element.modifyChild_set_set]

/-! ### The tree -/

theorem touchAll_append (front back : List Joint) (i : Nat) (element : Element) :
    touchAll (front ++ back) i element = touchAll back i (touchAll front i element) :=
  List.foldl_append ..

theorem touchAll_untouched {joints : List Joint} {i : Nat} (element : Element)
    (joint : ∀ joint ∈ joints, joint.jointEl ≠ some i)
    (link : ∀ joint ∈ joints, joint.linkEl ≠ some i) : touchAll joints i element = element := by
  induction joints generalizing element with
  | nil => rfl
  | cons first rest ih =>
    have kept : first.touch i element = element := by
      simp [Joint.touch, joint first List.mem_cons_self, link first List.mem_cons_self]
    rw [touchAll, List.foldl_cons, kept]
    exact ih element (fun next member => joint next (List.mem_cons_of_mem _ member))
      fun next member => link next (List.mem_cons_of_mem _ member)

/-- A child that no joint refers to as its own keeps the last mass written into it, if any. -/
theorem touchAll_link {joints : List Joint} {i : Nat}
    (joint : ∀ joint ∈ joints, joint.jointEl ≠ some i) :
    (∀ joint ∈ joints, joint.linkEl ≠ some i) ∨
      ∃ writer ∈ joints, writer.linkEl = some i ∧
        ∀ element, touchAll joints i element = setMassElement writer.mass element := by
  induction joints using List.reverseRecOn with
  | nil => exact .inl (by simp)
  | append_singleton rest last ih =>
    have others : ∀ next ∈ rest, next.jointEl ≠ some i := fun next member =>
      joint next (List.mem_append_left _ member)
    have own := joint last (by simp)
    have step (element : Element) : touchAll (rest ++ [last]) i element =
        last.touch i (touchAll rest i element) := touchAll_append rest [last] i element
    by_cases link : last.linkEl = some i
    · refine .inr ⟨last, by simp, link, fun element => ?_⟩
      rw [step, Joint.touch]
      simp only [link, own, and_false, if_true, if_false]
      rcases ih others with none | ⟨writer, -, -, written⟩
      · rw [touchAll_untouched element others none]
      · rw [written, setMassElement_setMassElement]
    · have kept (element : Element) : last.touch i element = element := by
        simp [Joint.touch, own, link]
      simp only [step, kept]
      rcases ih others with none | ⟨writer, member, place, written⟩
      · refine .inl fun next member => ?_
        rcases List.mem_append.mp member with member | member
        · exact none next member
        · rw [List.mem_singleton.mp member]
          exact link
      · exact .inr ⟨writer, List.mem_append_left _ member, place, written⟩

namespace GravityModel
variable {self : GravityModel}

/-- An element that is some joint's own takes part in the save of this joint only. -/
theorem Sound.touchAll_joint (sound : self.Sound) {joint : Joint} (member : joint ∈ self.joints)
    {i : Nat} (own : joint.jointEl = some i) (element : Element) :
    touchAll self.joints i element =
      if joint.scale.lessThanZero then flipAxis element else element := by
  obtain ⟨front, back, split⟩ := List.append_of_mem member
  obtain ⟨place, there, kind⟩ := sound.jointEl joint member i own
  have notLink : ∀ other ∈ self.joints, other.linkEl ≠ some i := by
    intro other listed link
    obtain ⟨same, again, tag⟩ := sound.linkEl other listed i link
    obtain rfl : place = same := Option.some.inj (there.symm.trans again)
    simp only [named, Element.isTag, Bool.and_eq_true, beq_iff_eq] at kind tag
    rw [kind.1] at tag
    simp at tag
  have names := sound.distinct
  rw [split, List.map_append, List.map_cons] at names
  have apart : joint.name ∉ front.map Joint.name ∧ joint.name ∉ back.map Joint.name := by
    have middle := List.nodup_middle.mp names
    rw [List.nodup_cons, List.mem_append, not_or] at middle
    exact middle.1
  have others {part : List Joint} (sub : ∀ other ∈ part, other ∈ self.joints)
      (absent : joint.name ∉ part.map Joint.name) (element : Element) :
      touchAll part i element = element := by
    refine touchAll_untouched element (fun other listed same => ?_) fun other listed =>
      notLink other (sub other listed)
    have := sound.unique member (sub other listed) own same
    exact absent (List.mem_map.mpr ⟨other, listed, by rw [this]⟩)
  have alone : joint.touch i element =
      if joint.scale.lessThanZero then flipAxis element else element := by
    simp [Joint.touch, own, notLink joint member]
  rw [split, touchAll_append, others (by simp +contextual [split]) apart.1, touchAll, List.foldl_cons,
    alone]
  exact others (by simp +contextual [split]) apart.2 _

/-- Joints whose axis will be turned around by the next save, and by each one after it. -/
def Turning (self : GravityModel) : Prop :=
  ∃ joint ∈ self.joints, joint.scale.lessThanZero = true ∧
    ∃ i element, joint.jointEl = some i ∧ self.xmlRoot.children[i]? = some element ∧
      Directed element

/-- The tree as a second save leaves it is the tree as the first did, if no axis turns. -/
theorem Sound.saved_again (sound : self.Sound) (settled : ¬ self.Turning) :
    self.joints.foldl saveJoint self.saved = self.saved := by
  obtain ⟨tag, attributes, text, tail⟩ := foldl_saveJoint_root self.joints self.saved
  refine Element.ext tag attributes text (List.ext_getElem? fun i => ?_) tail
  rw [foldl_saveJoint_child, saved, foldl_saveJoint_child, Option.map_map]
  cases there : self.xmlRoot.children[i]? with
  | none => rfl
  | some element =>
    simp only [Option.map_some, Function.comp_apply, Option.some.injEq]
    by_cases own : ∃ joint ∈ self.joints, joint.jointEl = some i
    · obtain ⟨joint, member, own⟩ := own
      rw [sound.touchAll_joint member own, sound.touchAll_joint member own]
      cases negative : joint.scale.lessThanZero
      · rfl
      · simp only [if_true]
        rw [flipAxis_flipAxis]
        exact fun directed =>
          settled ⟨joint, member, negative, i, element, own, there, directed⟩
    · have none : ∀ joint ∈ self.joints, joint.jointEl ≠ some i := fun joint member same =>
        own ⟨joint, member, same⟩
      rcases touchAll_link none with kept | ⟨writer, -, -, written⟩
      · rw [touchAll_untouched element none kept, touchAll_untouched element none kept]
      · rw [written, written, setMassElement_setMassElement]

theorem Sound.saved_differs (sound : self.Sound) (turning : self.Turning) :
    self.joints.foldl saveJoint self.saved ≠ self.saved := by
  obtain ⟨joint, member, negative, i, element, own, there, directed⟩ := turning
  intro same
  have child := congrArg (fun root => root.children[i]?) same
  simp only [foldl_saveJoint_child, saved, there, Option.map_some, Option.some.injEq,
    sound.touchAll_joint member own, negative, if_true] at child
  exact (flipAxis_flipAxis element).mp child directed

/-- If saving once more changes nothing, all that is written is the tree after the first save. -/
theorem writes_same {document : Element}
    (settled : self.joints.foldl saveJoint document = document) (saved : self.saved = document)
    (calls : List (Option (List Char) × Bool)) : ∀ written ∈ self.writes calls, written = document := by
  induction calls generalizing self with
  | nil => simp [writes]
  | cons call calls ih =>
    obtain ⟨path, opens⟩ := call
    have later (path : List Char) :
        ({ self with xmlRoot := self.saved, path := path } : GravityModel).saved = document := by
      rw [saved]
      exact settled
    simp only [writes, save]
    split_ifs with empty opened
    · exact ih settled saved
    · intro written member
      rcases List.mem_cons.mp member with rfl | member
      · exact saved
      · exact @ih ⟨self.joints, self.saved, self.outputPath path⟩ settled (later _) written member
    · exact @ih ⟨self.joints, self.saved, self.path⟩ settled (later self.path)

end GravityModel

/-- A forearm of 2 kg on one joint. -/
def elbow (axis : List Element) : Element where
  tag := "robot"
  children := [
    { tag := "joint"
      attributes := [("name", ['e', 'l', 'b', 'o', 'w']), ("type", "revolute".toList)]
      children := [
        { tag := "parent", attributes := [("link", ['a', 'r', 'm'])] },
        { tag := "child", attributes := [("link", ['f', 'o', 'r', 'e'])] }] ++ axis },
    { tag := "link", attributes := [("name", ['a', 'r', 'm'])] },
    { tag := "link"
      attributes := [("name", ['f', 'o', 'r', 'e'])]
      children := [{ tag := "inertial"
                     children := [{ tag := "mass", attributes := [("value", ['2'])] }] }] }]

/-- The joint turns about z. -/
def elbowRoot : Element :=
  elbow [{ tag := "axis", attributes := [("xyz", ['0', ' ', '0', ' ', '1'])] }]

def elbowBuild : Build := fun _ => some {
  nq := 1
  joints := [{ name := ['e', 'l', 'b', 'o', 'w'], nv := 1, mass := 2, axis := some (0, 0, 1) }]
  distinct := List.nodup_singleton _ }

def elbowModel : GravityModel where
  joints := [{ name := ['e', 'l', 'b', 'o', 'w'], mass := .ofRat 2, jointEl := some 0,
               linkEl := some 2 }]
  xmlRoot := elbowRoot
  path := ['a']

theorem elbow_loaded : load elbowBuild ['a'] (.document elbowRoot) = .ok elbowModel := rfl

end Florid.GravityTuner
