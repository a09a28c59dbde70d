import Florid.GravityTuner.Model

/-! What a save does to each child of the root, and that the places a model refers to hold what
they did when it was loaded. -/
namespace Florid.GravityTuner
open Xml Decimal

/-! ### Child by child -/

/-- What saving a joint does to the child at this place. -/
def Joint.touch (joint : Joint) (i : Nat) (element : Element) : Element :=
  let element := if joint.linkEl = some i then setMassElement joint.mass element else element
  if joint.scale.lessThanZero ∧ joint.jointEl = some i then flipAxis element else element

def touchAll (joints : List Joint) (i : Nat) (element : Element) : Element :=
  joints.foldl (fun element joint => joint.touch i element) element

theorem modifyAt_child (root : Element) (place : Option Nat) (f : Element → Element) (i : Nat) :
    (modifyAt root place f).children[i]? =
      (root.children[i]?).map fun element => if place = some i then f element else element := by
  cases place with
  | none => simp [modifyAt]
  | some k =>
    simp only [modifyAt, List.getElem?_modify, Option.some.injEq]
    rfl

theorem saveJoint_child (root : Element) (joint : Joint) (i : Nat) :
    (saveJoint root joint).children[i]? = (root.children[i]?).map (joint.touch i) := by
  unfold saveJoint
  cases negative : joint.scale.lessThanZero
  · simp only [Bool.false_eq_true, if_false, modifyAt_child]
    congr 1
    funext element
    simp [Joint.touch, negative]
  · simp only [if_true, modifyAt_child, Option.map_map]
    congr 1
    funext element
    simp [Joint.touch, negative]

theorem foldl_saveJoint_child (joints : List Joint) (root : Element) (i : Nat) :
    (joints.foldl saveJoint root).children[i]? = (root.children[i]?).map (touchAll joints i) := by
  induction joints generalizing root with
  | nil =>
    rw [List.foldl_nil]
    cases root.children[i]? <;> rfl
  | cons joint joints ih =>
    rw [List.foldl_cons, ih, saveJoint_child, Option.map_map]
    rfl

/-- The root itself is not touched. -/
theorem foldl_saveJoint_root (joints : List Joint) (root : Element) :
    (joints.foldl saveJoint root).tag = root.tag ∧
    (joints.foldl saveJoint root).attributes = root.attributes ∧
    (joints.foldl saveJoint root).text = root.text ∧
    (joints.foldl saveJoint root).tail = root.tail := by
  have one (root : Element) (place : Option Nat) (f : Element → Element) :
      (modifyAt root place f).tag = root.tag ∧
      (modifyAt root place f).attributes = root.attributes ∧
      (modifyAt root place f).text = root.text ∧ (modifyAt root place f).tail = root.tail := by
    cases place <;> simp [modifyAt]
  induction joints generalizing root with
  | nil => simp
  | cons joint joints ih =>
    have step : (saveJoint root joint).tag = root.tag ∧
        (saveJoint root joint).attributes = root.attributes ∧
        (saveJoint root joint).text = root.text ∧ (saveJoint root joint).tail = root.tail := by
      unfold saveJoint
      split <;> simp [one]
    rw [List.foldl_cons]
    obtain ⟨tag, attributes, text, tail⟩ := ih (saveJoint root joint)
    exact ⟨tag.trans step.1, attributes.trans step.2.1, text.trans step.2.2.1,
      tail.trans step.2.2.2⟩

/-! ### One element at a time -/

@[simp] theorem tag_setMassElement (mass : Double) (link : Element) :
    (setMassElement mass link).tag = link.tag := by
  unfold setMassElement
  dsimp only
  split_ifs <;> rfl

@[simp] theorem get_setMassElement (mass : Double) (link : Element) (key : String) :
    (setMassElement mass link).get key = link.get key := by
  unfold setMassElement
  dsimp only
  split_ifs <;> rfl

theorem flipAxis_eq (joint : Element) :
    flipAxis joint = joint ∨
      ∃ text, flipAxis joint = joint.modifyChild (Element.isTag "axis") (·.set "xyz" text) := by
  unfold flipAxis
  split
  · exact .inl rfl
  · split
    · exact .inl rfl
    · exact .inr ⟨_, rfl⟩

@[simp] theorem tag_flipAxis (joint : Element) : (flipAxis joint).tag = joint.tag := by
  rcases flipAxis_eq joint with same | ⟨text, changed⟩
  · rw [same]
  · rw [changed, Element.tag_modifyChild]

@[simp] theorem get_flipAxis (joint : Element) (key : String) :
    (flipAxis joint).get key = joint.get key := by
  rcases flipAxis_eq joint with same | ⟨text, changed⟩
  · rw [same]
  · rw [changed, Element.get_modifyChild]

theorem Joint.touch_keeps (joint : Joint) (i : Nat) (element : Element) :
    (joint.touch i element).tag = element.tag ∧
      ∀ key, (joint.touch i element).get key = element.get key := by
  unfold Joint.touch
  dsimp only
  split_ifs <;> simp

theorem touchAll_keeps (joints : List Joint) (i : Nat) (element : Element) :
    (touchAll joints i element).tag = element.tag ∧
      ∀ key, (touchAll joints i element).get key = element.get key := by
  induction joints generalizing element with
  | nil => exact ⟨rfl, fun _ => rfl⟩
  | cons joint joints ih =>
    obtain ⟨tag, keys⟩ := ih (joint.touch i element)
    obtain ⟨first, firstKeys⟩ := joint.touch_keeps i element
    exact ⟨tag.trans first, fun key => (keys key).trans (firstKeys key)⟩

/-! ### The places referred to -/

/-- What a call never changes of a joint. -/
def Joint.refs (joint : Joint) : List Char × Option Nat × Option Nat :=
  (joint.name, joint.jointEl, joint.linkEl)

/-- Elements of the same tag and the same name are in the same places, and the joints refer to
the same ones. -/
structure GravityModel.Keeps (before after : GravityModel) : Prop where
  refs : after.joints.map Joint.refs = before.joints.map Joint.refs
  children : ∀ (i : Nat) (element : Element), before.xmlRoot.children[i]? = some element →
    ∃ kept : Element, after.xmlRoot.children[i]? = some kept ∧ kept.tag = element.tag ∧
      ∀ key, kept.get key = element.get key

theorem GravityModel.Keeps.refl (self : GravityModel) : self.Keeps self :=
  ⟨rfl, fun _ element there => ⟨element, there, rfl, fun _ => rfl⟩⟩

theorem GravityModel.Keeps.trans {first second third : GravityModel}
    (one : first.Keeps second) (two : second.Keeps third) : first.Keeps third := by
  refine ⟨two.refs.trans one.refs, fun i element there => ?_⟩
  obtain ⟨kept, place, tag, keys⟩ := one.children i element there
  obtain ⟨last, place, tags, allKeys⟩ := two.children i kept place
  exact ⟨last, place, tags.trans tag, fun key => (allKeys key).trans (keys key)⟩

theorem map_refs_modify (joints : List Joint) (i : Nat) {f : Joint → Joint}
    (same : ∀ joint, (f joint).refs = joint.refs) :
    (joints.modify i f).map Joint.refs = joints.map Joint.refs := by
  apply List.ext_getElem?
  intro k
  simp only [List.getElem?_map, List.getElem?_modify]
  cases joints[k]? with
  | none => rfl
  | some joint => by_cases there : i = k <;> simp [there, same]

theorem GravityModel.keeps_saved (self : GravityModel) (path : List Char) :
    self.Keeps { self with xmlRoot := self.saved, path := path } := by
  refine ⟨rfl, fun i element there => ?_⟩
  obtain ⟨tag, keys⟩ := touchAll_keeps self.joints i element
  exact ⟨_, by simp [GravityModel.saved, foldl_saveJoint_child, there], tag, keys⟩

theorem GravityModel.call_keeps (self : GravityModel) (call : Call) :
    self.Keeps (self.call call) := by
  cases call with
  | setMass joint mass =>
    simp only [GravityModel.call, GravityModel.setMass]
    split_ifs
    · exact .refl self
    · exact .refl self
    · exact ⟨map_refs_modify _ _ fun _ => rfl, (Keeps.refl self).children⟩
  | setScale joint scale =>
    simp only [GravityModel.call, GravityModel.setScale]
    split
    · exact .refl self
    · exact ⟨map_refs_modify _ _ fun _ => rfl, (Keeps.refl self).children⟩
  | save path opens =>
    simp only [GravityModel.call, GravityModel.save]
    split_ifs
    · exact .refl self
    · exact self.keeps_saved _
    · exact self.keeps_saved self.path

theorem GravityModel.run_keeps (self : GravityModel) (calls : List Call) :
    self.Keeps (self.run calls) := by
  induction calls generalizing self with
  | nil => exact .refl self
  | cons call calls ih => exact (self.call_keeps call).trans (ih (self.call call))

/-- The joints refer to elements of their own: to a joint of their name, and to a link. -/
structure GravityModel.Sound (model : GravityModel) : Prop where
  distinct : (model.joints.map Joint.name).Nodup
  jointEl : ∀ joint ∈ model.joints, ∀ i, joint.jointEl = some i →
    ∃ element : Element, model.xmlRoot.children[i]? = some element ∧
      named "joint" joint.name element = true
  linkEl : ∀ joint ∈ model.joints, ∀ i, joint.linkEl = some i →
    ∃ element : Element, model.xmlRoot.children[i]? = some element ∧ element.isTag "link" = true

theorem GravityModel.Sound.keeps {before after : GravityModel} (sound : before.Sound)
    (keeps : before.Keeps after) : after.Sound := by
  have same : ∀ joint ∈ after.joints, ∃ old ∈ before.joints, old.refs = joint.refs := by
    intro joint member
    have listed := List.mem_map_of_mem (f := Joint.refs) member
    rw [keeps.refs] at listed
    simpa using listed
  refine ⟨?_, fun joint member i place => ?_, fun joint member i place => ?_⟩
  · have names : after.joints.map Joint.name = before.joints.map Joint.name := by
      simpa [Function.comp_def, Joint.refs] using congrArg (List.map Prod.fst) keeps.refs
    rw [names]
    exact sound.distinct
  · obtain ⟨old, known, refs⟩ := same joint member
    simp only [Joint.refs, Prod.mk.injEq] at refs
    obtain ⟨element, there, kind⟩ := sound.jointEl old known i (refs.2.1.trans place)
    obtain ⟨kept, there, tag, keys⟩ := keeps.children i element there
    refine ⟨kept, there, ?_⟩
    rw [← refs.1]
    simpa [named, Element.isTag, tag, keys] using kind
  · obtain ⟨old, known, refs⟩ := same joint member
    simp only [Joint.refs, Prod.mk.injEq] at refs
    obtain ⟨element, there, kind⟩ := sound.linkEl old known i (refs.2.2.trans place)
    obtain ⟨kept, there, tag, -⟩ := keeps.children i element there
    exact ⟨kept, there, by simpa [Element.isTag, tag] using kind⟩

theorem lastWhere_spec {α : Type} {p : α → Bool} {xs : List α} {i : Nat}
    (found : lastWhere p xs = some i) : ∃ x, xs[i]? = some x ∧ p x = true := by
  induction xs generalizing i with
  | nil => cases found
  | cons x xs ih =>
    rw [lastWhere] at found
    split at found
    · rename_i k inner
      cases found
      exact ih inner
    · split at found
      · cases found
        exact ⟨x, rfl, by assumption⟩
      · cases found

/-- A loaded model, with what it was loaded from. -/
theorem load_ok {build : Build} {urdfPath : List Char} {file : File} {model : GravityModel}
    (loaded : load build urdfPath file = .ok model) :
    ∃ root built, file = .document root ∧ build root = some built ∧ built.nq ≠ 0 ∧
      model.xmlRoot = root ∧
      model.joints = (built.joints.filter (·.nv ≠ 0)).map (Joint.ofPin root) := by
  simp only [load] at loaded
  split at loaded
  · cases loaded
  · split at loaded
    any_goals cases loaded
    rename_i root
    split at loaded
    · cases loaded
    · rename_i built accepted
      split at loaded
      · cases loaded
      · rename_i movable
        cases loaded
        exact ⟨root, built, rfl, accepted, movable, rfl, rfl⟩

theorem load_sound {build : Build} {urdfPath : List Char} {file : File} {model : GravityModel}
    (loaded : load build urdfPath file = .ok model) : model.Sound := by
  obtain ⟨root, built, -, -, -, rfl, joints⟩ := load_ok loaded
  refine ⟨?_, fun joint member i place => ?_, fun joint member i place => ?_⟩
  · rw [joints, List.map_map]
    exact built.distinct.sublist (List.filter_sublist.map _)
  · rw [joints] at member
    obtain ⟨pin, -, rfl⟩ := List.mem_map.mp member
    exact lastWhere_spec place
  · rw [joints] at member
    obtain ⟨pin, -, rfl⟩ := List.mem_map.mp member
    simp only [Joint.ofPin, urdfLink, Option.bind_eq_bind, Option.bind_eq_some_iff] at place
    obtain ⟨k, -, element, -, name, -, place⟩ := place
    split at place
    · cases place
    · obtain ⟨element, there, kind⟩ := lastWhere_spec place
      simp only [named, Bool.and_eq_true] at kind
      exact ⟨element, there, kind.1⟩

/-- However it is used, a model refers to its own joints and links. -/
theorem run_sound {build : Build} {urdfPath : List Char} {file : File} {model : GravityModel}
    (loaded : load build urdfPath file = .ok model) (calls : List Call) :
    (model.run calls).Sound :=
  (load_sound loaded).keeps (model.run_keeps calls)

/-- Two joints that refer to the same element are the same. -/
theorem GravityModel.Sound.unique {self : GravityModel} (sound : self.Sound)
    {first second : Joint} (one : first ∈ self.joints) (two : second ∈ self.joints) {i : Nat}
    (firstEl : first.jointEl = some i) (secondEl : second.jointEl = some i) : first = second := by
  obtain ⟨element, there, kind⟩ := sound.jointEl first one i firstEl
  obtain ⟨other, same, kinds⟩ := sound.jointEl second two i secondEl
  obtain rfl : element = other := Option.some.inj (there.symm.trans same)
  simp only [named, Bool.and_eq_true, beq_iff_eq] at kind kinds
  exact List.inj_on_of_nodup_map sound.distinct one two
    (Option.some.inj (kind.2.symm.trans kinds.2))

end Florid.GravityTuner
