import Lineup.Json.Encode
import Lineup.Json.Library

/-!
# What is kept of a tree

JSON has no numbers but finite ones. By the laws of a library, the text of a tree is read as the
tree that has null in place of the others (`Library.Lawful.reads`).
-/

namespace Lineup.Json

/-- A tree is looked into by what its elements and members satisfy. -/
@[elab_as_elim]
theorem induction {P : Json → Prop} (null : P null) (bool : ∀ b, P (bool b))
    (int : ∀ n, P (int n)) (float : ∀ x, P (float x)) (string : ∀ s, P (string s))
    (array : ∀ l : List Json, (∀ j ∈ l, P j) → P (array l))
    (object : ∀ l : List (Option String × Json), (∀ m ∈ l, P m.2) → P (object l)) (j : Json) :
    P j :=
  Json.rec (motive_1 := P) (motive_2 := fun l => ∀ j ∈ l, P j)
    (motive_3 := fun l => ∀ m ∈ l, P m.2) (motive_4 := fun m => P m.2)
    null bool int float string array object nofun
    (fun _ _ hj hl => List.forall_mem_cons.2 ⟨hj, hl⟩) nofun
    (fun _ _ hm hl => List.forall_mem_cons.2 ⟨hm, hl⟩) (fun _ _ hj => hj) j

/-! ### Depth -/

section Depth

variable {d : Nat}

theorem elementsDepth_le_iff {l : List Json} : elementsDepth l ≤ d ↔ ∀ j ∈ l, j.depth ≤ d := by
  induction l with
  | nil => simp [elementsDepth]
  | cons j l ih => rw [elementsDepth, Nat.max_le, ih, List.forall_mem_cons]

theorem membersDepth_le_iff {l : List (String × Json)} :
    membersDepth (l.map fun (k, j) => (some k, j)) ≤ d ↔ ∀ m ∈ l, m.2.depth ≤ d := by
  induction l with
  | nil => simp [membersDepth]
  | cons m l ih => rw [List.map_cons, membersDepth, Nat.max_le, ih, List.forall_mem_cons]

/-- Opening an array takes up a level. -/
theorem exists_of_depth_array_le {l : List Json} (h : (array l).depth ≤ d) :
    ∃ e, d = e + 1 ∧ ∀ j ∈ l, j.depth ≤ e := by
  obtain ⟨e, rfl⟩ := Nat.exists_eq_add_of_le' (Nat.le_of_add_left_le h)
  exact ⟨e, rfl, elementsDepth_le_iff.1 (Nat.le_of_add_le_add_right h)⟩

/-- Opening an object takes up a level. -/
theorem exists_of_depth_ofFields_le {l : List (String × Json)} (h : (ofFields l).depth ≤ d) :
    ∃ e, d = e + 1 ∧ ∀ m ∈ l, m.2.depth ≤ e := by
  obtain ⟨e, rfl⟩ := Nat.exists_eq_add_of_le' (Nat.le_of_add_left_le h)
  exact ⟨e, rfl, membersDepth_le_iff.1 (Nat.le_of_add_le_add_right h)⟩

theorem exists_of_depth_tagged_le {tag : String} {j : Json} (h : (tagged tag j).depth ≤ d) :
    ∃ e, d = e + 1 ∧ j.depth ≤ e := by
  obtain ⟨e, he, hj⟩ := exists_of_depth_ofFields_le h
  exact ⟨e, he, hj _ List.mem_cons_self⟩

end Depth

/-! ### What is kept -/

mutual

/-- The tree that is found again: floats that are not finite have become null. -/
def kept : Json → Json
  | float x => if x.isFinite then float x else null
  | array l => array (keptElements l)
  | object l => object (keptMembers l)
  | null => null
  | bool b => bool b
  | int n => int n
  | string s => string s

def keptElements : List Json → List Json
  | [] => []
  | j :: l => j.kept :: keptElements l

def keptMembers : List (Option String × Json) → List (Option String × Json)
  | [] => []
  | (k, j) :: l => (k, j.kept) :: keptMembers l

end

theorem kept_array (l : List Json) : (array l).kept = array (l.map kept) := by
  have h : keptElements l = l.map kept := by
    induction l with
    | nil => rfl
    | cons j l ih => rw [keptElements, ih, List.map_cons]
  rw [kept, h]

theorem kept_object (l : List (Option String × Json)) :
    (object l).kept = object (l.map fun (k, j) => (k, j.kept)) := by
  have h : keptMembers l = l.map fun (k, j) => (k, j.kept) := by
    induction l with
    | nil => rfl
    | cons m l ih => rw [keptMembers, ih, List.map_cons]
  rw [kept, h]

theorem kept_ofFields (l : List (String × Json)) :
    (ofFields l).kept = ofFields (l.map fun (k, j) => (k, j.kept)) := by
  rw [ofFields, kept_object, ofFields, List.map_map, List.map_map]
  rfl

theorem kept_tagged (tag : String) (j : Json) : (tagged tag j).kept = tagged tag j.kept :=
  kept_ofFields _

theorem kept_ofOption {α : Type} (encode : α → Json) (a : Option α) :
    (ofOption encode a).kept = ofOption (fun b => (encode b).kept) a := by
  cases a <;> rfl

/-! ### Texts -/

/-- Says that the strings of a tree and the names of its members are texts. -/
inductive Textual : Json → Prop where
  | null : Textual null
  | bool (b : Bool) : Textual (bool b)
  | int (n : Int64) : Textual (int n)
  | float (x : Binary64) : Textual (float x)
  | string (s : String) : Textual (ofString s)
  | array {l : List Json} (h : ∀ j ∈ l, Textual j) : Textual (array l)
  | fields {l : List (String × Json)} (h : ∀ m ∈ l, Textual m.2) : Textual (ofFields l)

namespace Textual

theorem tagged {tag : String} {j : Json} (h : Textual j) : Textual (Json.tagged tag j) :=
  .fields (List.forall_mem_singleton.2 h)

theorem ofOption {α : Type} {encode : α → Json} (h : ∀ a, Textual (encode a)) (a : Option α) :
    Textual (Json.ofOption encode a) := by
  cases a with
  | none => exact .null
  | some a => exact h a

end Textual

variable {L : Library}

theorem Library.Lawful.reads_float (hL : L.Lawful) (x : Binary64) :
    L.Reads (.float x) (kept (.float x)) := by
  rw [kept]
  split
  · rename_i hx
    exact hL.float x hx
  · rename_i hx
    rw [Reads, hL.text_float x (Bool.eq_false_iff.2 hx)]
    exact hL.null

/-- The text of a tree is read as what is kept of the tree, unless it is nested too deep. -/
theorem Library.Lawful.reads (hL : L.Lawful) {j : Json} (hj : j.Textual)
    (hdepth : j.depth ≤ L.maxDepth) : L.Reads j j.kept := by
  induction hj with
  | null => exact hL.null
  | bool b => exact hL.bool b
  | int n => exact hL.int n
  | float x => exact hL.reads_float x
  | string s => exact hL.string s
  | array _ ih =>
    obtain ⟨e, he, hl⟩ := exists_of_depth_array_le hdepth
    rw [kept_array]
    exact hL.array _ kept hdepth fun j hj => ih j hj (he ▸ Nat.le_succ_of_le (hl j hj))
  | fields _ ih =>
    obtain ⟨e, he, hl⟩ := exists_of_depth_ofFields_le hdepth
    rw [kept_ofFields]
    exact hL.object _ kept hdepth fun m hm => ih m hm (he ▸ Nat.le_succ_of_le (hl m hm))

end Lineup.Json
