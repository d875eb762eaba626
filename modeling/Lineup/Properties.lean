import Lineup.Value.Equality

/-!
# Property maps

The named values of an item. The entries stand in ascending order of their names, without
repetition, so a map is determined by what it holds under each name and not by how it was built.
-/

namespace Lineup

/-- Puts a value under a name, in place of the one that was there. -/
def putEntry (k : String) (v : Value) : List (String × Value) → List (String × Value)
  | [] => [(k, v)]
  | (k', v') :: l =>
    if k < k' then (k, v) :: (k', v') :: l
    else if k = k' then (k, v) :: l
    else (k', v') :: putEntry k v l

theorem mem_putEntry {k : String} {v : Value} {l : List (String × Value)} {e : String × Value}
    (h : e ∈ putEntry k v l) : e = (k, v) ∨ e ∈ l := by
  induction l with
  | nil => simpa [putEntry] using h
  | cons a l ih =>
    simp only [putEntry] at h
    split at h
    · simpa using h
    · split at h
      · rcases List.mem_cons.1 h with h | h
        · exact .inl h
        · exact .inr (List.mem_cons_of_mem _ h)
      · rcases List.mem_cons.1 h with h | h
        · exact .inr (h ▸ List.mem_cons_self)
        · exact (ih h).imp_right (List.mem_cons_of_mem _)

theorem ascending_putEntry (k : String) (v : Value) {l : List (String × Value)}
    (h : l.Pairwise (·.1 < ·.1)) : (putEntry k v l).Pairwise (·.1 < ·.1) := by
  induction l with
  | nil => simp [putEntry]
  | cons a l ih =>
    obtain ⟨ha, hl⟩ := List.pairwise_cons.1 h
    simp only [putEntry]
    split
    · rename_i hk
      refine List.pairwise_cons.2 ⟨fun e he => ?_, h⟩
      rcases List.mem_cons.1 he with rfl | he
      · exact hk
      · exact String.lt_trans hk (ha e he)
    · split
      · rename_i hk
        exact List.pairwise_cons.2 ⟨fun e he => hk ▸ ha e he, hl⟩
      · rename_i h₁ h₂
        refine List.pairwise_cons.2 ⟨fun e he => ?_, ih hl⟩
        rcases mem_putEntry he with rfl | he
        · exact String.not_le.1 fun h => h₂ (String.le_antisymm h (String.not_lt.1 h₁))
        · exact ha e he

structure Properties where
  entries : List (String × Value)
  ascending : entries.Pairwise (·.1 < ·.1)

namespace Properties

def empty : Properties := ⟨[], .nil⟩

instance : Inhabited Properties := ⟨empty⟩

/-- Puts `v` under the name `k`, in place of the value that was there. -/
def insert (p : Properties) (k : String) (v : Value) : Properties :=
  ⟨putEntry k v p.entries, ascending_putEntry k v p.ascending⟩

/-- Inserts in order, so that the last value given under a name stays. -/
def insertMany (p : Properties) (l : List (String × Value)) : Properties :=
  l.foldl (fun p e => p.insert e.1 e.2) p

def ofList (l : List (String × Value)) : Properties := empty.insertMany l

def get? (p : Properties) (k : String) : Option Value := p.entries.lookup k

/-- The value under a name, where null counts as none. -/
def present? (p : Properties) (k : String) : Option Value :=
  (p.get? k).filter fun v => !v.isNull

def contains (p : Properties) (k : String) : Bool := (p.get? k).isSome

def keys (p : Properties) : List String := p.entries.map (·.1)

def values (p : Properties) : List Value := p.entries.map (·.2)

def size (p : Properties) : Nat := p.entries.length

def isEmpty (p : Properties) : Bool := p.entries.isEmpty

/-- Whether some property holds exactly the string `s`, under whatever name. -/
def holdsString (p : Properties) (s : String) : Bool :=
  p.values.any fun v => v.asString? = some s

/-- Whether two maps have the same names and alike values under them. -/
def alike (p q : Properties) : Bool :=
  p.entries.length = q.entries.length &&
    (p.entries.zip q.entries).all fun (a, b) => a.1 = b.1 && a.2.alike b.2

instance : BEq Properties := ⟨alike⟩

def digest (p : Properties) : List UInt64 :=
  UInt64.ofNat p.size :: p.entries.flatMap fun (k, v) => textDigest k ++ v.digest

instance : Hashable Properties := ⟨fun p => hash p.digest⟩

@[ext] theorem ext {p q : Properties} (h : p.entries = q.entries) : p = q := by
  cases p; cases q; cases h; rfl

@[simp] theorem entries_empty : empty.entries = [] := rfl

@[simp] theorem entries_insert (p : Properties) (k : String) (v : Value) :
    (p.insert k v).entries = putEntry k v p.entries := rfl

theorem lookup_putEntry (k k' : String) (v : Value) (l : List (String × Value)) :
    (putEntry k v l).lookup k' = if k' = k then some v else l.lookup k' := by
  have pass {a b : String} (x : Value) (l : List (String × Value)) (h : a ≠ b) :
      List.lookup a ((b, x) :: l) = l.lookup a := by
    simp [List.lookup_cons, beq_eq_false_iff_ne.2 h]
  induction l with
  | nil => by_cases h : k' = k <;> simp [putEntry, pass, h]
  | cons a l ih =>
    obtain ⟨ka, va⟩ := a
    simp only [putEntry]
    split
    · by_cases h : k' = k <;> simp [pass, h]
    · split
      · subst_vars
        by_cases h : k' = ka <;> simp [pass, h]
      · rename_i hk
        by_cases h : k' = ka
        · have hne : k' ≠ k := fun e => hk (e ▸ h)
          subst h
          simp [hne]
        · rw [pass _ _ h, pass _ _ h, ih]

/-- A map holds under a name what was last put there. -/
theorem get?_insert (p : Properties) (k k' : String) (v : Value) :
    (p.insert k v).get? k' = if k' = k then some v else p.get? k' :=
  lookup_putEntry k k' v p.entries

end Properties

end Lineup
