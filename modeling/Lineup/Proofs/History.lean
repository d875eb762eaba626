import Lineup.Json.Encode
import Lineup.Proofs.Distinct
import Lineup.Proofs.Text.Order
import Lineup.Roster.Report

/-!
# Histories of property maps

A map holds under each name what was last written there (`History.reflects`), in whatever order and
how often its names were written. As its entries stand in one order, there is one map for what is
last written under all names (`Properties.Reflects.eq_iff`), and nothing that is done with a map can
tell by which history it was made.
-/

namespace Lineup

/-! ### What was written last -/

/-- Says that `v` is the last value that a list of entries, taken in turn, has for the name `k`. -/
def LastUnder (l : List (String × Value)) (k : String) (v : Value) : Prop :=
  ∃ before after, l = before ++ (k, v) :: after ∧ ∀ e ∈ after, e.1 ≠ k

variable {l m : List (String × Value)} {k k' : String} {v v' : Value}

theorem not_lastUnder_nil : ¬ LastUnder [] k v := by
  rintro ⟨before, after, h, -⟩
  exact List.append_ne_nil_of_right_ne_nil before (List.cons_ne_nil _ after) h.symm

theorem lastUnder_concat_iff :
    LastUnder (l ++ [(k', v')]) k v ↔ if k = k' then v' = v else LastUnder l k v := by
  constructor
  · rintro ⟨before, after, h, hafter⟩
    -- the last entry of the name is the one at the end, or stands before that
    rcases List.eq_nil_or_concat' after with rfl | ⟨after, e, rfl⟩
    · obtain ⟨-, he⟩ := List.append_inj' h rfl
      obtain ⟨rfl, rfl⟩ := Prod.mk.inj (List.singleton_inj.1 he)
      rw [if_pos rfl]
    · rw [← List.cons_append, ← List.append_assoc] at h
      obtain ⟨hl, he⟩ := List.append_inj' h rfl
      obtain rfl := List.singleton_inj.1 he
      rw [if_neg (hafter _ (List.mem_append_right _ List.mem_cons_self)).symm]
      exact ⟨before, after, hl, fun e he => hafter e (List.mem_append_left _ he)⟩
  · intro h
    split_ifs at h with hk
    · subst hk h
      exact ⟨l, [], rfl, nofun⟩
    · obtain ⟨before, after, rfl, hafter⟩ := h
      refine ⟨before, after ++ [(k', v')], List.append_assoc .., ?_⟩
      exact List.forall_mem_append.2 ⟨hafter, List.forall_mem_singleton.2 (Ne.symm hk)⟩

theorem exists_lastUnder_iff : (∃ v, LastUnder l k v) ↔ ∃ e ∈ l, e.1 = k := by
  induction l using List.reverseRecOn with
  | nil => simp [not_lastUnder_nil]
  | append_singleton l e ih =>
    obtain ⟨k', v'⟩ := e
    simp only [lastUnder_concat_iff, List.mem_append, List.mem_singleton, or_and_right, exists_or,
      exists_eq_left, ← ih]
    split_ifs with hk
    · simp [hk]
    · simp [Ne.symm hk]

/-! ### Maps that hold it -/

namespace Properties

/-- Says that a map holds under each name what was last written there. -/
def Reflects (p : Properties) (l : List (String × Value)) : Prop :=
  ∀ k v, p.get? k = some v ↔ LastUnder l k v

theorem reflects_empty : empty.Reflects [] :=
  fun _ _ => iff_of_false nofun not_lastUnder_nil

theorem Reflects.insert {p : Properties} (h : p.Reflects l) (k : String) (v : Value) :
    (p.insert k v).Reflects (l ++ [(k, v)]) := by
  intro k' v'
  rw [get?_insert, lastUnder_concat_iff]
  split_ifs
  · exact Option.some_inj
  · exact h k' v'

theorem Reflects.insertMany {p : Properties} (h : p.Reflects l) (m : List (String × Value)) :
    (p.insertMany m).Reflects (l ++ m) := by
  induction m generalizing p l with
  | nil => rwa [List.append_nil]
  | cons e m ih =>
    rw [List.append_cons]
    exact ih (h.insert e.1 e.2)

theorem reflects_ofList (l : List (String × Value)) : (ofList l).Reflects l :=
  reflects_empty.insertMany l

theorem reflects_entries (p : Properties) : p.Reflects p.entries := by
  have h := reflects_ofList p.entries
  rwa [ofList_entries] at h

/-- Since the names ascend, a map has its entries in one order only. -/
theorem eq_of_get?_eq {p q : Properties} (h : ∀ k v, p.get? k = some v ↔ q.get? k = some v) :
    p = q := by
  have : Std.Irrefl fun d e : String × Value => d.1 < e.1 := ⟨fun _ => lt_irrefl _⟩
  have : Std.Antisymm fun d e : String × Value => d.1 < e.1 :=
    ⟨fun _ _ hde hed => absurd hed (lt_asymm hde)⟩
  refine ext (p.ascending.eq_of_mem_iff q.ascending fun e => ?_)
  rw [← get?_eq_some_iff, ← get?_eq_some_iff, h]

theorem bytes_ascending (p : Properties) :
    p.keys.Pairwise fun k k' => Text.bytes k < Text.bytes k' :=
  p.keys_ascending.imp Text.lt_iff_bytes_lt.1

theorem nodup_keys (p : Properties) : p.keys.Nodup := p.keys_ascending.imp ne_of_lt

namespace Reflects

variable {p q : Properties}

theorem contains_iff (h : p.Reflects l) : p.contains k ↔ ∃ e ∈ l, e.1 = k := by
  rw [contains, Option.isSome_iff_exists, ← exists_lastUnder_iff]
  exact exists_congr (h k)

theorem get?_eq_none_iff (h : p.Reflects l) : p.get? k = none ↔ ∀ e ∈ l, e.1 ≠ k := by
  rw [← Option.not_isSome_iff_eq_none, ← contains, h.contains_iff]
  simp only [not_exists, not_and, ne_eq]

/-- A map has an entry for each of the names that were written. -/
theorem size_eq (h : p.Reflects l) : p.size = (l.map (·.1)).toFinset.card := by
  have hnames : p.keys.toFinset = (l.map (·.1)).toFinset := by
    ext k
    rw [List.mem_toFinset, List.mem_toFinset, ← contains_iff_mem_keys, h.contains_iff,
      List.mem_map]
  rw [← hnames, List.toFinset_card_of_nodup p.nodup_keys, keys, List.length_map, size]

theorem holdsString_iff (h : p.Reflects l) {s : String} :
    p.holdsString s ↔ ∃ k, LastUnder l k (.string s) := by
  rw [Properties.holdsString_iff]
  exact exists_congr fun k => h k _

theorem eq_iff (hp : p.Reflects l) (hq : q.Reflects m) :
    p = q ↔ ∀ k v, LastUnder l k v ↔ LastUnder m k v := by
  constructor
  · rintro rfl k v
    rw [← hp k v, hq k v]
  · intro h
    exact eq_of_get?_eq fun k v => (hp k v).trans ((h k v).trans (hq k v).symm)

end Reflects

end Properties

/-! ### Histories -/

/-- A step in the making of the properties of an item. -/
inductive Write where
  /-- Puts a value into the map. -/
  | set (k : String) (v : Value)
  /-- Gives the item a property. -/
  | give (k : String) (v : Value)
  /-- Makes the map anew from entries. -/
  | collect (l : List (String × Value))

/-- What is written once a step is done. Making a map anew leaves nothing of what was there. -/
def Write.logged (l : List (String × Value)) : Write → List (String × Value)
  | .set k v | .give k v => l ++ [(k, v)]
  | .collect m => m

def Item.write (i : Item) : Write → Item
  | .set k v => { i with properties := i.properties.insert k v }
  | .give k v => i.insert k v
  | .collect l => { i with properties := .ofList l }

/-- How an item came to have its properties: those it had at first, and what was done to them. -/
structure History where
  start : Item
  writes : List Write

namespace History

def item (h : History) : Item := h.writes.foldl Item.write h.start

def properties (h : History) : Properties := h.item.properties

/-- The entries that were written in turn, since the map was last made anew if it was. -/
def log (h : History) : List (String × Value) :=
  h.writes.foldl Write.logged h.start.properties.entries

/-- Says that the same values were last written in two histories. -/
def EndsLike (h g : History) : Prop := ∀ k v, LastUnder h.log k v ↔ LastUnder g.log k v

theorem reflects_write {i : Item} (h : i.properties.Reflects l) (w : Write) :
    (i.write w).properties.Reflects (w.logged l) := by
  cases w with
  | set k v | give k v => exact h.insert k v
  | collect m => exact Properties.reflects_ofList m

theorem reflects_foldl_write (ws : List Write) {i : Item} (h : i.properties.Reflects l) :
    (ws.foldl Item.write i).properties.Reflects (ws.foldl Write.logged l) := by
  induction ws generalizing i l with
  | nil => exact h
  | cons w ws ih => exact ih (reflects_write h w)

/-- Whatever was done, the map holds under each name what was last written there. -/
theorem reflects (h : History) : h.properties.Reflects h.log :=
  reflects_foldl_write h.writes h.start.properties.reflects_entries

variable {h g : History}

theorem properties_eq_iff : h.properties = g.properties ↔ h.EndsLike g :=
  h.reflects.eq_iff g.reflects

theorem map_eq_of_forall₂ {α β : Type} {R : α → α → Prop} {f : α → β}
    {as bs : List α} (h : List.Forall₂ R as bs) (hf : ∀ a b, R a b → f a = f b) :
    as.map f = bs.map f := by
  rw [← List.forall₂_eq_eq_eq, List.forall₂_map_left_iff, List.forall₂_map_right_iff]
  exact h.imp hf

theorem name_write (i : Item) (w : Write) : (i.write w).name = i.name := by
  cases w <;> rfl

theorem name_foldl_write (ws : List Write) (i : Item) : (ws.foldl Item.write i).name = i.name := by
  induction ws generalizing i with
  | nil => rfl
  | cons w ws ih => exact (ih (i.write w)).trans (name_write i w)

theorem item_eq (h : History) : h.item = ⟨h.start.name, h.properties⟩ :=
  congrArg (fun name => Item.mk name h.properties) (name_foldl_write h.writes h.start)

theorem item_eq_item (hname : h.start.name = g.start.name) (hends : h.EndsLike g) :
    h.item = g.item := by
  rw [item_eq, item_eq, hname, properties_eq_iff.2 hends]

/-- **Only last writes count**: by whatever history a map was made, its names ascend by their bytes,
it has under each name the value that was last written there, and it has no other names. Maps are
the same just if the same values were last written, and then they are equal, feed the same data to a
hash and have their entries in one order, items of one name are shown alike, and the texts that
encode them are the same in every format. No condition, rule or roster judges them differently. -/
theorem determined_by_last_writes :
    (∀ h : History,
      h.properties.keys.Pairwise (fun k k' => Text.bytes k < Text.bytes k') ∧
        h.properties.keys.Nodup ∧
        (∀ k v, h.properties.get? k = some v ↔ LastUnder h.log k v) ∧
        (∀ k, h.properties.get? k = none ↔ ∀ e ∈ h.log, e.1 ≠ k) ∧
        (∀ k v, h.item.get? k = some v ↔ LastUnder h.log k v ∧ v ≠ .null) ∧
        (∀ k, h.item.hasProperty k ↔ ∃ e ∈ h.log, e.1 = k) ∧
        h.properties.size = (h.log.map (·.1)).toFinset.card ∧
        ∀ s, h.properties.holdsString s ↔ ∃ k, LastUnder h.log k (.string s)) ∧
      (∀ h g : History, h.properties = g.properties ↔ h.EndsLike g) ∧
      (∀ h g : History, h.EndsLike g →
        h.properties == g.properties ∧ h.properties.digest = g.properties.digest ∧
          h.properties.entries = g.properties.entries ∧
          (∀ text : Json → String, text h.properties.toJson = text g.properties.toJson) ∧
          (h.start.name = g.start.name →
            h.item == g.item ∧ h.item.digest = g.item.digest ∧ h.item.shown = g.item.shown ∧
              ∀ text : Json → String, text h.item.toJson = text g.item.toJson)) ∧
      (∀ hs gs : List History, List.Forall₂ EndsLike hs gs →
        (∀ o (r : Rule), r.matched o (hs.map properties) = r.matched o (gs.map properties)) ∧
          ∀ o (c : Condition) j (h g : History), h.EndsLike g →
            c.holds o ⟨h.properties, some (hs.map properties), j⟩ =
                c.holds o ⟨g.properties, some (gs.map properties), j⟩ ∧
              c.holds o ⟨h.properties, none, j⟩ = c.holds o ⟨g.properties, none, j⟩) ∧
      ∀ hs gs : List History,
        List.Forall₂ (fun h g => h.start.name = g.start.name ∧ h.EndsLike g) hs gs →
        ∀ r : Roster, r.report (hs.map item) = r.report (gs.map item) := by
  refine ⟨fun h => ?_, fun h g => properties_eq_iff, fun h g hends => ?_, fun hs gs hends => ?_,
    fun hs gs hends r => ?_⟩
  · refine ⟨h.properties.bytes_ascending, h.properties.nodup_keys, h.reflects,
      fun k => h.reflects.get?_eq_none_iff, fun k v => ?_, fun k => h.reflects.contains_iff,
      h.reflects.size_eq, fun s => h.reflects.holdsString_iff⟩
    exact Properties.present?_eq_some_iff.trans (and_congr_left' (h.reflects k v))
  · have hproperties := properties_eq_iff.2 hends
    refine ⟨Properties.digest_eq_iff.1 (congrArg Properties.digest hproperties),
      congrArg Properties.digest hproperties, congrArg Properties.entries hproperties,
      fun text => congrArg (fun p => text p.toJson) hproperties, fun hname => ?_⟩
    have hitem := item_eq_item hname hends
    exact ⟨Item.digest_eq_iff.1 (congrArg Item.digest hitem), congrArg Item.digest hitem,
      congrArg Item.shown hitem, fun text => congrArg (fun i => text i.toJson) hitem⟩
  · have hhands := map_eq_of_forall₂ (f := properties) hends fun _ _ => properties_eq_iff.2
    refine ⟨fun o r => congrArg (r.matched o) hhands, fun o c j h g hends => ?_⟩
    rw [hhands, properties_eq_iff.2 hends]
    exact ⟨rfl, rfl⟩
  · have hitems := map_eq_of_forall₂ (f := item) hends fun _ _ h => item_eq_item h.1 h.2
    exact congrArg r.report hitems

/-- What is put into a map one by one, and what it is made of at once in another order and with one
value that does not last. -/
theorem determined_by_last_writes_ace :
    EndsLike ⟨.named "ace", [.set "suit" .null, .give "rank" (.int 7)]⟩
        ⟨.named "ace", [.collect [("rank", .int 3), ("suit", .null), ("rank", .int 7)]]⟩ ∧
      (item ⟨.named "ace", [.set "suit" .null, .give "rank" (.int 7)]⟩).shown =
        (item ⟨.named "ace",
          [.collect [("rank", .int 3), ("suit", .null), ("rank", .int 7)]]⟩).shown ∧
      (Rule.simple [⟨"ace", none, none⟩]).matched .reject
          ([⟨.named "ace", [.set "suit" .null, .give "rank" (.int 7)]⟩].map properties) =
        (Rule.simple [⟨"ace", none, none⟩]).matched .reject
          ([⟨.named "ace",
            [.collect [("rank", .int 3), ("suit", .null), ("rank", .int 7)]]⟩].map properties) ∧
      (Roster.mk [] ["ace"] false rfl).report
          ([⟨.named "ace", [.set "suit" .null, .give "rank" (.int 7)]⟩].map item) =
        (Roster.mk [] ["ace"] false rfl).report
          ([⟨.named "ace",
            [.collect [("rank", .int 3), ("suit", .null), ("rank", .int 7)]]⟩].map item) := by
  obtain ⟨-, -, hsame, hhands, hrosters⟩ := determined_by_last_writes
  have hends : EndsLike ⟨.named "ace", [.set "suit" .null, .give "rank" (.int 7)]⟩
      ⟨.named "ace", [.collect [("rank", .int 3), ("suit", .null), ("rank", .int 7)]]⟩ :=
    properties_eq_iff.1 (Properties.ext rfl)
  obtain ⟨-, -, -, -, hitems⟩ := hsame _ _ hends
  obtain ⟨-, -, hshown, -⟩ := hitems rfl
  refine ⟨hends, hshown, (hhands _ _ (.cons hends .nil)).1 _ _,
    hrosters _ _ (.cons ⟨?_, hends⟩ .nil) _⟩
  rfl

end History

end Lineup
