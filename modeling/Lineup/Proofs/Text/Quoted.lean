import Lineup.Proofs.Delimits
import Lineup.Text.Quoted

/-!
# Quoted texts are told apart

A character is escaped by a letter, by its number between braces or not at all, and each form shows
where it ends. So does a quoted text, since no character is escaped to what starts with a quote, and
so does a list of quoted texts. Nothing of a text is lost in its quoted form.
-/

namespace Lineup

/-- A text between fixed ones, as the characters of the whole. -/
theorem Delimits.between {α : Type} {w : α → String} {R : α → α → Prop}
    (h : Delimits (fun a => (w a).toList) R) (pre post : String) :
    Delimits (fun a => (pre ++ w a ++ post).toList) R := by
  refine ((h.append post.toList).prepend pre.toList).congr (fun a => ?_) fun _ _ => Iff.rfl
  rw [String.toList_append, String.toList_append, List.append_assoc]

namespace Text

/-! ### Numbers of characters -/

theorem digitChar_inj : ∀ a < 16, ∀ b < 16, Nat.digitChar a = Nat.digitChar b → a = b := by
  decide

theorem toDigits_inj {m n : Nat} (h : Nat.toDigits 16 m = Nat.toDigits 16 n) : m = n := by
  induction m using Nat.strongRecOn generalizing n with
  | ind m ih =>
    rw [Nat.toDigits_eq_if (by decide), Nat.toDigits_eq_if (n := n) (by decide)] at h
    split at h <;> split at h
    · rename_i hm hn
      exact digitChar_inj m hm n hn (List.head_eq_of_cons_eq h)
    · exact absurd (congrArg List.length h) (by simp [Nat.toDigits_ne_nil])
    · exact absurd (congrArg List.length h) (by simp [Nat.toDigits_ne_nil])
    · obtain ⟨hhigh, hlow⟩ := List.append_inj' h rfl
      have hhigh := ih (m / 16) (by omega) hhigh
      have hlow := digitChar_inj (m % 16) (Nat.mod_lt _ (by decide)) (n % 16)
        (Nat.mod_lt _ (by decide)) (List.head_eq_of_cons_eq hlow)
      omega

theorem brace_notMem_toDigits (n : Nat) : '\x7d' ∉ Nat.toDigits 16 n := by
  have hdigit : ∀ k < 16, '\x7d' ∉ [Nat.digitChar k] := by decide
  induction n using Nat.strongRecOn with
  | ind n ih =>
    rw [Nat.toDigits_eq_if (by decide)]
    split
    · rename_i hn
      exact hdigit n hn
    · rw [List.mem_append, not_or]
      exact ⟨ih (n / 16) (by omega), hdigit (n % 16) (Nat.mod_lt _ (by decide))⟩

theorem hexDigits_inj {c d : Char} : hexDigits c = hexDigits d ↔ c = d :=
  ⟨fun h => Char.toNat_inj.1 (toDigits_inj h), congrArg hexDigits⟩

theorem delimits_hexDigits : Delimits (fun c => hexDigits c ++ ['\x7d']) (· = ·) :=
  delimits_of_notMem (fun _ _ => hexDigits_inj) fun c => brace_notMem_toDigits c.toNat

/-! ### Characters -/

/-- The characters that are escaped by a letter, with these letters. -/
def shortEscapes : List (Char × Char) :=
  [('\x00', '0'), ('\t', 't'), ('\n', 'n'), ('\r', 'r'), ('"', '"'), ('\\', '\\')]

theorem escaped_cases (c : Char) :
    (∃ d, (c, d) ∈ shortEscapes ∧ escaped c = ['\\', d]) ∨
      escaped c = '\\' :: 'u' :: '\x7b' :: (hexDigits c ++ ['\x7d']) ∨
      escaped c = [c] ∧ c ≠ '\\' ∧ c ≠ '"' := by
  unfold escaped
  split
  · exact .inl ⟨'0', by decide, rfl⟩
  · exact .inl ⟨'t', by decide, rfl⟩
  · exact .inl ⟨'n', by decide, rfl⟩
  · exact .inl ⟨'r', by decide, rfl⟩
  · exact .inl ⟨'"', by decide, rfl⟩
  · exact .inl ⟨'\\', by decide, rfl⟩
  · rename_i hquote hbackslash
    split
    · exact .inr (.inl rfl)
    · exact .inr (.inr ⟨rfl, hbackslash, hquote⟩)

theorem delimits_escaped : Delimits escaped (· = ·) where
  ne_nil c := by
    rcases escaped_cases c with ⟨d, -, h⟩ | h | ⟨h, -, -⟩ <;> rw [h] <;> exact List.cons_ne_nil _ _
  append_iff := by
    have hletters : ∀ p ∈ shortEscapes, ∀ q ∈ shortEscapes, p.2 = q.2 → p.1 = q.1 := by decide
    have hnumber : ∀ p ∈ shortEscapes, p.2 ≠ 'u' := by decide
    intro a b s t
    constructor
    · intro h
      rcases escaped_cases a with ⟨d, hd, ha⟩ | ha | ⟨ha, hbackslash, -⟩ <;>
        rcases escaped_cases b with ⟨e, he, hb⟩ | hb | ⟨hb, hbackslash', -⟩ <;>
        rw [ha, hb] at h <;>
        simp only [List.cons_append, List.nil_append, List.cons.injEq, true_and] at h
      · exact ⟨hletters _ hd _ he h.1, h.2⟩
      · exact absurd h.1 (hnumber _ hd)
      · exact absurd h.1.symm hbackslash'
      · exact absurd h.1.symm (hnumber _ he)
      · exact delimits_hexDigits.append_iff.1 h
      · exact absurd h.1.symm hbackslash'
      · exact absurd h.1 hbackslash
      · exact absurd h.1 hbackslash
      · exact h
    · rintro ⟨rfl, rfl⟩
      rfl

theorem head?_escaped (c : Char) : (escaped c).head? ≠ some '"' := by
  rcases escaped_cases c with ⟨d, -, h⟩ | h | ⟨h, -, hquote⟩ <;> rw [h, List.head?_cons]
  · decide
  · decide
  · exact fun he => hquote (Option.some.inj he)

/-! ### Texts -/

theorem delimits_quoted : Delimits (fun s => (quoted s).toList) (· = ·) := by
  have hchars := ((delimits_escaped.closed head?_escaped).prepend ['"']).on String.toList
  refine hchars.congr (fun s => ?_) fun s t => ?_
  · rw [quoted, String.toList_ofList]
    rfl
  · rw [List.forall₂_eq_eq_eq, String.toList_inj]

theorem head?_quoted (s : String) : (quoted s).toList.head? = some '"' := by
  rw [quoted, String.toList_ofList]
  rfl

/-- A text in parentheses that does not hold the closing one. -/
theorem delimits_parenthesized {α : Type} {w : α → String} {R : α → α → Prop} (pre : String)
    (hw : ∀ a b, w a = w b ↔ R a b) (hclose : ∀ a, ')' ∉ (w a).toList) :
    Delimits (fun a => (pre ++ w a ++ ")").toList) R := by
  have hbody := delimits_of_notMem (f := fun a => (w a).toList)
    (fun a b => String.toList_inj.trans (hw a b)) hclose
  refine (hbody.prepend pre.toList).congr (fun a => ?_) fun _ _ => Iff.rfl
  rw [String.toList_append, String.toList_append, List.append_assoc]
  rfl

/-- A list of texts between brackets, none of which starts with the closing one. -/
theorem delimits_bracketed {α : Type} {w : α → String} {R : α → α → Prop}
    (h : Delimits (fun a => (w a).toList) R) (hw : ∀ a, (w a).toList.head? ≠ some ']') :
    Delimits (fun l => ("[" ++ ", ".intercalate (l.map w) ++ "]").toList) (List.Forall₂ R) := by
  refine ((h.separated (by decide : ',' ≠ ']') hw [' ']).prepend ['[']).congr (fun l => ?_)
    fun l l' => Iff.rfl
  rw [String.toList_append, String.toList_append, String.toList_intercalate, List.map_map]
  rfl

theorem delimits_quotedList : Delimits (fun l => (quotedList l).toList) (· = ·) :=
  (delimits_bracketed delimits_quoted fun s => by rw [head?_quoted]; decide).congr (fun _ => rfl)
    fun l l' => by rw [List.forall₂_eq_eq_eq]

end Text

end Lineup
