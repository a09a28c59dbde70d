import Florid.Decimal
import Florid.Words
import Florid.Xml

/-! `GravityModel` of the gravity tuner: what it keeps of a URDF that Pinocchio has accepted, the
parameters that may be changed, and what `save` does to the retained tree and writes. The tree is
changed in place; an element is referred to by its place among the children of the root. -/
namespace Florid.GravityTuner
open Xml Decimal

/-! ### What Pinocchio builds -/

/-- A joint of `pin.Model`, with the mass of its inertia and its axis. -/
structure PinJoint where
  name : List Char
  nv : Nat
  mass : ℚ
  axis : Option (ℚ × ℚ × ℚ)

/-- `pin.Model`, its joints from the first behind the universe; no two have the same name. -/
structure PinModel where
  nq : Nat
  joints : List PinJoint
  distinct : (joints.map PinJoint.name).Nodup

/-- `pin.buildModelFromXML`, of the document that the text holds. -/
abbrev Build := Element → Option PinModel

/-! ### The model -/

/-- What is kept under the number of one movable joint. -/
structure Joint where
  name : List Char
  mass : Double
  scale : Double := .finite false 1
  jointEl : Option Nat
  linkEl : Option Nat

/-- A model that has loaded. -/
structure GravityModel where
  joints : List Joint
  xmlRoot : Element
  path : List Char

/-- What is at the path that is to be loaded. -/
inductive File where
  | missing
  | unreadable
  | blank
  | malformed
  | document (root : Element)

inductive LoadError where
  | fileNotFound
  | emptyFile
  | noMovableJoints
  | rejected
deriving DecidableEq

/-- The last place where a property holds: an entry under a key is overwritten by later ones. -/
def lastWhere {α : Type} (p : α → Bool) : List α → Option Nat
  | [] => none
  | x :: xs =>
    match lastWhere p xs with
    | some i => some (i + 1)
    | none => if p x then some 0 else none

def named (tag : String) (name : List Char) (element : Element) : Bool :=
  element.isTag tag && element.get "name" == some name

/-- `s_urdf_joints.get(name)` -/
def urdfJoint (root : Element) (name : List Char) : Option Nat :=
  lastWhere (named "joint" name) root.children

/-- The link that a joint's element names as its child. -/
def childLink (joint : Element) : Option (List Char) :=
  (joint.find "child").bind (·.get "link")

/-- `s_urdf_links.get(name)` of the joint's child. -/
def urdfLink (root : Element) (jointEl : Option Nat) : Option Nat := do
  let joint ← root.children[← jointEl]?
  let name ← childLink joint
  if name = [] then none else lastWhere (named "link" name) root.children

def Joint.ofPin (root : Element) (joint : PinJoint) : Joint where
  name := joint.name
  mass := .ofRat joint.mass
  jointEl := urdfJoint root joint.name
  linkEl := urdfLink root (urdfJoint root joint.name)

def load (build : Build) (urdfPath : List Char) (file : File) :
    Except LoadError GravityModel :=
  let path := Words.strip urdfPath
  if path = [] then .error .fileNotFound
  else
    match file with
    | .missing | .unreadable => .error .fileNotFound
    | .blank => .error .emptyFile
    | .malformed => .error .rejected
    | .document root =>
      match build root with
      | none => .error .rejected
      | some model =>
        if model.nq = 0 then .error .noMovableJoints
        else .ok {
          joints := (model.joints.filter (·.nv ≠ 0)).map (Joint.ofPin root)
          xmlRoot := root
          path }

/-! ### Parameter updates -/

inductive ParameterError where
  | negativeMass
  | key
  | index
deriving DecidableEq

namespace GravityModel
variable (self : GravityModel)

/-- The entry of a list that an index denotes; a negative one counts from the end. -/
def entry (length : Nat) (index : ℤ) : Option Nat :=
  if 0 ≤ index then if index < length then some index.toNat else none
  else if 0 ≤ index + length then some (index + length).toNat else none

/-- `set_mass`: the joint's number is looked up as a key. -/
def setMass (joint : ℤ) (mass : Double) : Except ParameterError GravityModel :=
  if mass.lessThanZero then .error .negativeMass
  else if joint < 1 ∨ self.joints.length < joint then .error .key
  else .ok { self with joints := self.joints.modify (joint - 1).toNat ({ · with mass }) }

/-- `set_scale`: the joint's number is an index, from one. -/
def setScale (joint : ℤ) (scale : Double) : Except ParameterError GravityModel :=
  match entry self.joints.length (joint - 1) with
  | none => .error .index
  | some i => .ok { self with joints := self.joints.modify i ({ · with scale }) }

end GravityModel

/-! ### Saving -/

def hasMass (inertial : Element) : Bool :=
  inertial.isTag "inertial" && (inertial.find "mass").isSome

/-- `_set_mass_element`: the first `inertial/mass` gets the value, or one is made for it. -/
def setMassElement (mass : Double) (link : Element) : Element :=
  let value := write 6 mass
  if link.children.any hasMass then
    link.modifyChild hasMass (·.modifyChild (Element.isTag "mass") (·.set "value" value))
  else
    let element := ({ tag := "mass" } : Element).set "value" value
    if (link.find "inertial").isSome then
      link.modifyChild (Element.isTag "inertial") (·.append element)
    else link.append (({ tag := "inertial" } : Element).append element)

/-- The components of an axis, `none` where one is not a number. -/
def components (xyz : List Char) : Option (List Double) := (Words.split xyz).mapM read

def reversed (values : List Double) : List Char := Words.join (values.map fun v => write 6 v.neg)

def xyz (axis : Element) : List Char := (axis.get "xyz").getD ['0', ' ', '0', ' ', '0']

/-- `_flip_axis` -/
def flipAxis (joint : Element) : Element :=
  match joint.find "axis" with
  | none => joint
  | some axis =>
    match components (xyz axis) with
    | none => joint
    | some values => joint.modifyChild (Element.isTag "axis") (·.set "xyz" (reversed values))

def modifyAt (root : Element) (i : Option Nat) (f : Element → Element) : Element :=
  match i with
  | none => root
  | some i => { root with children := root.children.modify i f }

/-- One round of the loop of `save`. -/
def saveJoint (root : Element) (joint : Joint) : Element :=
  let root := modifyAt root joint.linkEl (setMassElement joint.mass)
  if joint.scale.lessThanZero then modifyAt root joint.jointEl flipAxis else root

inductive SaveError where
  | noPath
  | notOpened
deriving DecidableEq

namespace GravityModel
variable (self : GravityModel)

/-- The tree as `save` leaves it. -/
def saved : Element := self.joints.foldl saveJoint self.xmlRoot

/-- `str(path or self._path).strip()` -/
def outputPath (path : Option (List Char)) : List Char :=
  Words.strip (match path with
    | none | some [] => self.path
    | some path => path)

/-- `save`: the document that is written and where, and the model afterwards. The tree has
changed also where the file then does not open. -/
def save (path : Option (List Char)) (opens : Bool) :
    Except SaveError (List Char × Element) × GravityModel :=
  let output := self.outputPath path
  if output = [] then (.error .noPath, self)
  else if opens then
    (.ok (output, self.saved), { self with xmlRoot := self.saved, path := output })
  else (.error .notOpened, { self with xmlRoot := self.saved })

end GravityModel

/-! ### Calls -/

/-- What a caller may do with a loaded model; an exception leaves it to the caller to go on. -/
inductive Call where
  | setMass (joint : ℤ) (mass : Double)
  | setScale (joint : ℤ) (scale : Double)
  | save (path : Option (List Char)) (opens : Bool)

def GravityModel.call (self : GravityModel) : Call → GravityModel
  | .setMass joint mass => (self.setMass joint mass).toOption.getD self
  | .setScale joint scale => (self.setScale joint scale).toOption.getD self
  | .save path opens => (self.save path opens).2

def GravityModel.run (self : GravityModel) (calls : List Call) : GravityModel :=
  calls.foldl GravityModel.call self

/-- The documents written by calls of `save` in a row. -/
def GravityModel.writes (self : GravityModel) :
    List (Option (List Char) × Bool) → List Element
  | [] => []
  | (path, opens) :: rest =>
    match (self.save path opens).1 with
    | .ok (_, document) => document :: (self.save path opens).2.writes rest
    | .error _ => (self.save path opens).2.writes rest

end Florid.GravityTuner
