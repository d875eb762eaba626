import Lineup.Json.Fields
import Lineup.Proofs.Json.Kept

/-!
# Shapes that are found again

Records and choices are told from what is kept of the trees that they were encoded as.
-/

namespace Lineup.Json

/-! ### Sequences of decoders -/

section Sequences

variable {α β γ : Type}

/-- Decoding goes on with what was encoded, if that is found again. -/
theorem bind_eq_some_iff_of {x : Option α} {a : α} {P : Prop} (h : ∀ b, x = some b ↔ a = b ∧ P)
    {f : α → Option β} {c : β} : x.bind f = some c ↔ P ∧ f a = some c := by
  simp only [Option.bind_eq_some_iff, h]
  constructor
  · rintro ⟨_, ⟨rfl, hP⟩, hc⟩
    exact ⟨hP, hc⟩
  · rintro ⟨hP, hc⟩
    exact ⟨a, ⟨rfl, hP⟩, hc⟩

theorem map_eq_some_iff_of {x : Option α} {a : α} {P : Prop} (h : ∀ b, x = some b ↔ a = b ∧ P)
    {f : α → β} {c : β} : x.map f = some c ↔ f a = c ∧ P := by
  rw [Option.map_eq_bind, bind_eq_some_iff_of h, Function.comp_apply, Option.some_inj, and_comm]

theorem mapM_map_eq_some {encode : α → β} {decode : β → Option γ} {h : α → γ} {l : List α}
    (hl : ∀ a ∈ l, decode (encode a) = some (h a)) :
    (l.map encode).mapM decode = some (l.map h) := by
  induction l with
  | nil => rfl
  | cons a l ih =>
    obtain ⟨ha, hl⟩ := List.forall_mem_cons.1 hl
    rw [List.map_cons, List.mapM_cons, ha, ih hl]
    rfl

/-- A list is found again if all that is in it is. -/
theorem mapM_map_eq_some_iff {encode : α → β} {decode : β → Option α} {P : α → Prop}
    {l k : List α} (hl : ∀ a ∈ l, ∀ b, decode (encode a) = some b ↔ a = b ∧ P a) :
    (l.map encode).mapM decode = some k ↔ l = k ∧ ∀ a ∈ l, P a := by
  induction l generalizing k with
  | nil => simp
  | cons a l ih =>
    obtain ⟨ha, hl⟩ := List.forall_mem_cons.1 hl
    rw [List.map_cons, List.mapM_cons, Option.bind_eq_bind, bind_eq_some_iff_of ha,
      Option.bind_eq_bind, bind_eq_some_iff_of fun _ => ih hl, List.forall_mem_cons, ← and_assoc,
      and_comm, Option.pure_def, Option.some_inj]

end Sequences

/-! ### Records and choices -/

theorem textMembers?_map (l : List (String × Json)) :
    textMembers? (l.map fun (k, j) => (some k, j)) = some l := by
  induction l with
  | nil => rfl
  | cons m l ih => rw [List.map_cons, textMembers?, ih]; rfl

theorem field?_eq_some {l : List (String × Json)} (h : (l.map Prod.fst).Nodup)
    {m : String × Json} (hm : m ∈ l) : field? l m.1 = some (some m.2) := by
  have hfilter : l.filter (·.1 = m.1) = [m] := by
    induction l with
    | nil => cases hm
    | cons a l ih =>
      obtain ⟨ha, hl⟩ := List.nodup_cons.1 h
      rcases List.mem_cons.1 hm with rfl | hm
      · have hnil : l.filter (·.1 = m.1) = [] := by
          rw [List.filter_eq_nil_iff]
          exact fun b hb he => ha (of_decide_eq_true he ▸ List.mem_map_of_mem hb)
        rw [List.filter_cons_of_pos (by simp), hnil]
      · have hne : a.1 ≠ m.1 := fun he => ha (he ▸ List.mem_map_of_mem hm)
        rw [List.filter_cons_of_neg (by simpa using hne), ih hl hm]
  rw [field?, hfilter]

/-- A record has the fields that it was encoded with, if their names are different. -/
theorem fields?_ofFields {names : List String} {l : List (String × Json)}
    (hl : l.map Prod.fst = names) (h : names.Nodup) :
    fields? names (ofFields l) = some (l.map fun m => some m.2) := by
  subst hl
  have hmembers : fields? (l.map Prod.fst) (ofFields l) = (l.map Prod.fst).mapM (field? l) := by
    change (textMembers? _).bind _ = _
    rw [textMembers?_map]
    rfl
  rw [hmembers]
  exact mapM_map_eq_some fun m hm => field?_eq_some h hm

theorem fields?_kept {names : List String} {l : List (String × Json)}
    (hl : l.map Prod.fst = names) (h : names.Nodup) :
    fields? names (ofFields l).kept = some (l.map fun m => some m.2.kept) := by
  have hnames : (l.map fun (k, j) => (k, j.kept)).map Prod.fst = names := by
    rw [List.map_map]
    exact hl
  rw [kept_ofFields, fields?_ofFields hnames h, List.map_map]
  rfl

theorem variant?_kept (tag : String) (j : Json) :
    variant? (tagged tag j).kept = some (tag, j.kept) := by
  rw [kept_tagged]
  rfl

/-! ### What may be absent -/

theorem optional?_some {α : Type} {decode : Json → Option α} {j : Json} (h : j ≠ null) :
    optional? decode (some j) = (decode j).map some := by
  cases j with
  | null => exact absurd rfl h
  | bool | int | float | string | array | object => rfl

/-- What was absent is found absent, as nothing else is encoded as null. -/
theorem optional?_ofOption {α : Type} {encode : α → Json} {decode : Json → Option α}
    {P : α → Prop} {a c : Option α} (hnull : ∀ b ∈ a, encode b ≠ null)
    (h : ∀ b ∈ a, ∀ c, decode (encode b) = some c ↔ b = c ∧ P b) :
    optional? decode (some (ofOption encode a)) = some c ↔ a = c ∧ ∀ b ∈ a, P b := by
  cases a with
  | none => simp [ofOption, optional?]
  | some b =>
    have hall : (∀ e ∈ some b, P e) ↔ P b := by simp
    rw [ofOption, optional?_some (hnull b rfl), map_eq_some_iff_of (h b rfl), hall]

end Lineup.Json
