import Mathlib.Data.List.Forall2

/-!
# What delimits itself

Things are written one behind another, and what was written can be told from the whole as long as
none of them is the start of a different one (`Delimits`). This is kept by writing things in pairs
and by putting a fixed text beside them. A list of things delimits itself if it is followed by what
none of them starts with (`Delimits.closed`), and a text without a mark if it is followed by the
mark (`delimits_of_notMem`).
-/

namespace Lineup

/-! ### Lists -/

theorem intercalate_cons {β : Type} (sep a : List β) (l : List (List β)) :
    sep.intercalate (a :: l) = a ++ l.flatMap (sep ++ ·) := by
  induction l generalizing a with
  | nil => simp [List.intercalate]
  | cons b l ih =>
    rw [List.intercalate_cons_cons, ih, List.flatMap_cons, List.append_assoc, List.append_assoc]

theorem append_cons_iff_of_notMem {β : Type} {z : β} {l l' s t : List β} (hl : z ∉ l)
    (hl' : z ∉ l') : l ++ z :: s = l' ++ z :: t ↔ l = l' ∧ s = t := by
  induction l generalizing l' with
  | nil =>
    cases l' with
    | nil => simp
    | cons c l' => simp [List.ne_of_not_mem_cons hl']
  | cons b l ih =>
    cases l' with
    | nil => simp [(List.ne_of_not_mem_cons hl).symm]
    | cons c l' =>
      rw [List.cons_append, List.cons_append, List.cons.injEq, List.cons.injEq, and_assoc,
        ih (List.not_mem_of_not_mem_cons hl) (List.not_mem_of_not_mem_cons hl')]

/-! ### Writing -/

/-- Says that related things, and no others, are written alike, whatever is written behind them. -/
structure Delimits {α β : Type} (write : α → List β) (R : α → α → Prop) : Prop where
  ne_nil (a : α) : write a ≠ []
  append_iff {a b : α} {s t : List β} : write a ++ s = write b ++ t ↔ R a b ∧ s = t

namespace Delimits

variable {α β γ : Type} {f : α → List β} {g : γ → List β} {R : α → α → Prop} {S : γ → γ → Prop}

theorem eq_iff (h : Delimits f R) {a b : α} : f a = f b ↔ R a b := by
  rw [← List.append_nil (f a), ← List.append_nil (f b), h.append_iff, and_iff_left rfl]

theorem prod (hf : Delimits f R) (hg : Delimits g S) :
    Delimits (fun p : α × γ => f p.1 ++ g p.2) (fun p q => R p.1 q.1 ∧ S p.2 q.2) where
  ne_nil p := List.append_ne_nil_of_left_ne_nil (hf.ne_nil p.1) _
  append_iff := by
    intro p q s t
    rw [List.append_assoc, List.append_assoc, hf.append_iff, hg.append_iff, and_assoc]

theorem prepend (h : Delimits f R) (k : List β) : Delimits (fun a => k ++ f a) R where
  ne_nil a := List.append_ne_nil_of_right_ne_nil k (h.ne_nil a)
  append_iff := by
    intro a b s t
    rw [List.append_assoc, List.append_assoc, List.append_cancel_left_eq, h.append_iff]

theorem append (h : Delimits f R) (k : List β) : Delimits (fun a => f a ++ k) R where
  ne_nil a := List.append_ne_nil_of_left_ne_nil (h.ne_nil a) k
  append_iff := by
    intro a b s t
    rw [List.append_assoc, List.append_assoc, h.append_iff, List.append_cancel_left_eq]

theorem congr (h : Delimits f R) {f' : α → List β} {R' : α → α → Prop} (hf : ∀ a, f' a = f a)
    (hR : ∀ a b, R a b ↔ R' a b) : Delimits f' R' where
  ne_nil a := hf a ▸ h.ne_nil a
  append_iff := by
    intro a b s t
    rw [hf, hf, h.append_iff, hR]

theorem on (h : Delimits f R) (k : γ → α) :
    Delimits (fun c => f (k c)) (fun c d => R (k c) (k d)) :=
  ⟨fun c => h.ne_nil (k c), h.append_iff⟩

theorem flatMap_eq_iff (h : Delimits f R) {l l' : List α} :
    l.flatMap f = l'.flatMap f ↔ List.Forall₂ R l l' := by
  induction l generalizing l' with
  | nil =>
    cases l' with
    | nil => simp
    | cons b l' => simp [h.ne_nil b]
  | cons a l ih =>
    cases l' with
    | nil => simp [h.ne_nil a]
    | cons b l' =>
      rw [List.flatMap_cons, List.flatMap_cons, h.append_iff, ih, List.forall₂_cons]

theorem append_ne_cons (h : Delimits f R) {z : β} (hz : ∀ a, (f a).head? ≠ some z) (a : α)
    (s t : List β) : f a ++ s ≠ z :: t := by
  intro heq
  obtain ⟨c, k, hc⟩ := List.exists_cons_of_ne_nil (h.ne_nil a)
  rw [hc, List.cons_append] at heq
  refine hz a ?_
  rw [hc, List.head?_cons, List.head_eq_of_cons_eq heq]

/-- A list ends where something stands with which none of its members starts. -/
theorem closed (h : Delimits f R) {z : β} (hz : ∀ a, (f a).head? ≠ some z) :
    Delimits (fun l => l.flatMap f ++ [z]) (List.Forall₂ R) where
  ne_nil l := List.append_ne_nil_of_right_ne_nil _ (List.cons_ne_nil z [])
  append_iff := by
    intro l l' s t
    induction l generalizing l' with
    | nil =>
      cases l' with
      | nil => simp
      | cons b l' => simp [(h.append_ne_cons hz b _ s).symm]
    | cons a l ih =>
      cases l' with
      | nil => simp [h.append_ne_cons hz a _ t]
      | cons b l' =>
        simp only [List.flatMap_cons, List.append_assoc, h.append_iff, List.forall₂_cons, and_assoc]
        simpa using fun _ => ih

/-- So does a list whose members are separated, by what differs from its end. -/
theorem separated (h : Delimits f R) {c z : β} (hcz : c ≠ z) (hz : ∀ a, (f a).head? ≠ some z)
    (sep : List β) :
    Delimits (fun l => (c :: sep).intercalate (l.map f) ++ [z]) (List.Forall₂ R) where
  ne_nil l := List.append_ne_nil_of_right_ne_nil _ (List.cons_ne_nil z [])
  append_iff := by
    have hmore := (h.prepend (c :: sep)).closed (z := z) fun _ he => hcz (Option.some.inj he)
    intro l l' s t
    cases l with
    | nil =>
      cases l' with
      | nil => simp [List.intercalate]
      | cons b l' => simp [intercalate_cons, (h.append_ne_cons hz b _ s).symm]
    | cons a l =>
      cases l' with
      | nil => simp [intercalate_cons, h.append_ne_cons hz a _ t]
      | cons b l' =>
        have hpair := (h.prod hmore).append_iff (a := (a, l)) (b := (b, l')) (s := s) (t := t)
        simpa [intercalate_cons, List.flatMap_map] using hpair

end Delimits

/-- Texts without a mark are told apart by the mark behind them. -/
theorem delimits_of_notMem {α β : Type} {f : α → List β} {R : α → α → Prop} {z : β}
    (hf : ∀ a b, f a = f b ↔ R a b) (hz : ∀ a, z ∉ f a) : Delimits (fun a => f a ++ [z]) R where
  ne_nil a := List.append_ne_nil_of_right_ne_nil _ (List.cons_ne_nil z [])
  append_iff := by
    intro a b s t
    rw [List.append_assoc, List.append_assoc, List.singleton_append, List.singleton_append,
      append_cons_iff_of_notMem (hz a) (hz b), hf]

end Lineup
