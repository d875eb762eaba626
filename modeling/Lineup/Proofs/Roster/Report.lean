import Lineup.Proofs.Text.Quoted
import Lineup.Roster.Report
import Mathlib.Data.Prod.Lex

/-!
# What a report lists

Where the names agree, every item is held against every requirement. A report has one message for
each pair of an item and a requirement that it does not meet, all those of one item before those of
the next, and nothing else (`Roster.listsShortfalls`). Where there is nothing to check or the names
differ, it has a single message that no requirement has a part in.
-/

namespace Lineup

variable {r : Roster} {items : List Item}

/-! ### Neighbours -/

theorem Surroundings.previous?_eq (before after : List Item) (i : Item) :
    Surroundings.previous? ⟨before ++ i :: after, before.length⟩ = before.getLast? := by
  rcases List.eq_nil_or_concat before with rfl | ⟨before, b, rfl⟩
  · rfl
  · simp [previous?]

theorem Surroundings.next?_eq (before after : List Item) (i : Item) :
    Surroundings.next? ⟨before ++ i :: after, before.length⟩ = after.head? := by
  rw [next?, List.getElem?_append_right (Nat.le_succ _), Nat.succ_sub (Nat.le_refl _), Nat.sub_self,
    List.getElem?_cons_succ, List.head?_eq_getElem?]

/-! ### Shortfalls -/

/-- Says that the item at the first place does not meet the requirement at the second, and with
which message. The requirement is put to the item among all others. -/
inductive FallsShort (r : Roster) (items : List Item) : Nat × Nat → String → Prop where
  | unmet {n k : Nat} {i : Item} {q : Requirement} (hi : items[n]? = some i)
      (hq : r.requirements[k]? = some q) (h : q.run i ⟨items, n⟩ = .ok false) :
    FallsShort r items (n, k) (i.name ++ ": " ++ q.shown)
  | raised {n k : Nat} {i : Item} {q : Requirement} {e : String} (hi : items[n]? = some i)
      (hq : r.requirements[k]? = some q) (h : q.run i ⟨items, n⟩ = .error e) :
    FallsShort r items (n, k) (i.name ++ ": " ++ q.label ++ " raised: " ++ e)

/-- Says that `messages` lists each shortfall once, item by item and for one item in the order of
the requirements. -/
def ListsShortfalls (r : Roster) (items : List Item) (messages : List String) : Prop :=
  ∃ places : List (Nat × Nat), places.Pairwise (Prod.Lex (· < ·) (· < ·)) ∧
    List.Forall₂ (FallsShort r items) places messages ∧
    ∀ place m, FallsShort r items place m → place ∈ places

theorem Requirement.fallsShort_iff {n k : Nat} {i : Item} {q : Requirement}
    (hi : items[n]? = some i) (hq : r.requirements[k]? = some q) {m : String} :
    FallsShort r items (n, k) m ↔ ∃ s, q.shortfall? i ⟨items, n⟩ = some s ∧ s.message = m := by
  constructor
  · intro h
    cases h with
    | unmet hi' hq' h =>
      cases hi.symm.trans hi'
      cases hq.symm.trans hq'
      exact ⟨_, by rw [shortfall?, h], rfl⟩
    | raised hi' hq' h =>
      cases hi.symm.trans hi'
      cases hq.symm.trans hq'
      exact ⟨_, by rw [shortfall?, h], rfl⟩
  · rintro ⟨s, hs, rfl⟩
    unfold shortfall? at hs
    split at hs
    · cases hs
    · cases hs
      exact .unmet hi hq ‹_›
    · cases hs
      exact .raised hi hq ‹_›

/-- The shortfalls of the items, each with its place. -/
def Roster.placedShortfalls (r : Roster) (items : List Item) : List ((Nat × Nat) × Shortfall) :=
  items.zipIdx.flatMap fun (i, n) => r.requirements.zipIdx.filterMap fun (q, k) =>
    (q.shortfall? i ⟨items, n⟩).map ((n, k), ·)

theorem Roster.mem_placedShortfalls {n k : Nat} {s : Shortfall} :
    ((n, k), s) ∈ r.placedShortfalls items ↔ ∃ i q, items[n]? = some i ∧
      r.requirements[k]? = some q ∧ q.shortfall? i ⟨items, n⟩ = some s := by
  simp only [placedShortfalls, List.mem_flatMap, List.mem_filterMap, Option.map_eq_some_iff,
    Prod.exists, List.mem_zipIdx_iff_getElem?]
  constructor
  · rintro ⟨i, n', hi, q, k', hq, s', hs, he⟩
    cases he
    exact ⟨i, q, hi, hq, hs⟩
  · rintro ⟨i, q, hi, hq, hs⟩
    exact ⟨i, n, hi, q, k, hq, s, hs, rfl⟩

theorem pairwise_zipIdx {α : Type} (l : List α) : l.zipIdx.Pairwise fun a b => a.2 < b.2 := by
  have h : (l.zipIdx.map Prod.snd).Pairwise (· < ·) := by
    rw [List.zipIdx_map_snd]
    exact List.pairwise_lt_range'
  exact List.pairwise_map.1 h

/-- Shortfalls stand in the order of their places. -/
theorem Roster.pairwise_placedShortfalls (r : Roster) (items : List Item) :
    (r.placedShortfalls items).Pairwise fun a b => Prod.Lex (· < ·) (· < ·) a.1 b.1 := by
  rw [placedShortfalls, List.pairwise_flatMap]
  constructor
  · rintro ⟨i, n⟩ -
    rw [List.pairwise_filterMap]
    refine (pairwise_zipIdx _).imp fun {a b} hab x hx y hy => ?_
    obtain ⟨s, -, rfl⟩ := Option.map_eq_some_iff.1 hx
    obtain ⟨t, -, rfl⟩ := Option.map_eq_some_iff.1 hy
    exact .right _ hab
  · refine (pairwise_zipIdx _).imp fun {a b} hab x hx y hy => ?_
    obtain ⟨_, -, hx⟩ := List.mem_filterMap.1 hx
    obtain ⟨_, -, hy⟩ := List.mem_filterMap.1 hy
    obtain ⟨s, -, rfl⟩ := Option.map_eq_some_iff.1 hx
    obtain ⟨t, -, rfl⟩ := Option.map_eq_some_iff.1 hy
    exact .left _ _ hab

theorem Roster.map_placedShortfalls (r : Roster) (items : List Item) :
    (r.placedShortfalls items).map Prod.snd = items.zipIdx.flatMap fun (i, n) =>
      r.requirements.filterMap (·.shortfall? i ⟨items, n⟩) := by
  have hcomp : ∀ (i : Item) (n : Nat), ((r.requirements.zipIdx.filterMap fun (q, k) =>
      (q.shortfall? i ⟨items, n⟩).map ((n, k), ·)).map Prod.snd) =
        r.requirements.filterMap (·.shortfall? i ⟨items, n⟩) := by
    intro i n
    have hfst := List.zipIdx_map_fst 0 r.requirements
    rw [List.map_filterMap]
    conv_rhs => rw [← hfst, List.filterMap_map]
    simp only [Option.map_map, Function.comp_def, Option.map_id']
  simp only [placedShortfalls, List.map_flatMap, hcomp]

/-- Where the names agree, a report lists every shortfall, each once and in order. -/
theorem Roster.listsShortfalls (hne : items ≠ []) (hnames : items.map Item.name = r.names) :
    ListsShortfalls r items (r.report items).messages := by
  have hempty : (items.isEmpty && r.names.isEmpty) = false := by
    rw [List.isEmpty_eq_false_iff.2 hne, Bool.false_and]
  have hmessages : (r.report items).messages =
      (r.placedShortfalls items).map fun x => x.2.message := by
    rw [report, hempty, if_neg Bool.false_ne_true, if_pos hnames, ← map_placedShortfalls,
      Report.messages, Report.ofShortfalls, List.map_map]
    rfl
  refine ⟨(r.placedShortfalls items).map Prod.fst, ?_, ?_, ?_⟩
  · exact List.pairwise_map.2 (r.pairwise_placedShortfalls items)
  · rw [hmessages, List.forall₂_map_left_iff, List.forall₂_map_right_iff, List.forall₂_same]
    rintro ⟨⟨n, k⟩, s⟩ hmem
    obtain ⟨i, q, hi, hq, hs⟩ := mem_placedShortfalls.1 hmem
    exact (Requirement.fallsShort_iff hi hq).2 ⟨s, hs, rfl⟩
  · rintro ⟨n, k⟩ m h
    have hplace : ∃ i q, items[n]? = some i ∧ r.requirements[k]? = some q := by
      cases h with
      | unmet hi hq _ | raised hi hq _ => exact ⟨_, _, hi, hq⟩
    obtain ⟨i, q, hi, hq⟩ := hplace
    obtain ⟨s, hs, -⟩ := (Requirement.fallsShort_iff hi hq).1 h
    exact List.mem_map_of_mem (mem_placedShortfalls.2 ⟨i, q, hi, hq, hs⟩)

/-! ### Flags -/

/-- Says that a report is marked as matched just if it lists no shortfalls. -/
def Report.Consistent (p : Report) : Prop := p.matched = p.shortfalls.isEmpty

theorem Report.consistent_failed (s : Shortfall) : (failed s).Consistent := rfl

theorem Report.consistent_ofShortfalls (l : List Shortfall) : (ofShortfalls l).Consistent := rfl

/-- However a report comes about, its flag agrees with what it lists. -/
theorem Roster.consistent_report (r : Roster) (items : List Item) :
    (r.report items).Consistent := by
  unfold report
  split
  · exact Report.consistent_failed _
  · split
    · exact Report.consistent_ofShortfalls _
    · exact Report.consistent_failed _

theorem Report.Consistent.matched_iff {p : Report} (h : p.Consistent) :
    p.matched ↔ p.messages = [] := by
  rw [h, messages, List.isEmpty_iff, List.map_eq_nil_iff]

/-- What is shown of a report is that it matched, or else all that it lists. -/
theorem Roster.shown_report (r : Roster) (items : List Item) :
    (r.report items).shown = if (r.report items).messages = [] then "matched"
      else "failed: [" ++ "; ".intercalate (r.report items).messages ++ "]" := by
  rw [Report.shown]
  exact if_congr (r.consistent_report items).matched_iff rfl rfl

/-- Where the names agree, a roster matches items that meet all its requirements. -/
theorem Roster.matched_iff (hne : items ≠ []) (hnames : items.map Item.name = r.names) :
    r.matched items ↔ ∀ (n : Nat) i, items[n]? = some i → ∀ q ∈ r.requirements,
      q.run i ⟨items, n⟩ = .ok true := by
  obtain ⟨places, -, hall, hmem⟩ := listsShortfalls hne hnames
  rw [matched, (r.consistent_report items).matched_iff]
  constructor
  · intro h n i hi q hq
    obtain ⟨k, hk⟩ := List.mem_iff_getElem?.1 hq
    rw [h, List.forall₂_nil_right_iff] at hall
    rw [hall] at hmem
    cases hrun : q.run i ⟨items, n⟩ with
    | error e => cases hmem _ _ (.raised hi hk hrun)
    | ok b =>
      cases b with
      | true => rfl
      | false => cases hmem _ _ (.unmet hi hk hrun)
  · intro h
    have hnone : ∀ place m, ¬ FallsShort r items place m := by
      intro place m hshort
      cases hshort with
      | unmet hi hq hrun =>
        cases hrun.symm.trans (h _ _ hi _ (List.mem_of_getElem? hq))
      | raised hi hq hrun =>
        cases hrun.symm.trans (h _ _ hi _ (List.mem_of_getElem? hq))
    generalize (r.report items).messages = messages at hall ⊢
    cases hall with
    | nil => rfl
    | cons hshort _ => exact absurd hshort (hnone _ _)

theorem Shortfall.message_misnamed (expected got : List String) : (misnamed expected got).message =
    "sequence order mismatch: expected " ++ Text.quotedList expected ++ ", got " ++
      Text.quotedList got := rfl

/-- A message about names tells which ones were asked for and which ones were found. -/
theorem Shortfall.message_misnamed_inj {expected got expected' got' : List String} :
    (misnamed expected got).message = (misnamed expected' got').message ↔
      expected = expected' ∧ got = got' := by
  have hall := (Text.delimits_quotedList.between "sequence order mismatch: expected " ", got ").prod
    Text.delimits_quotedList
  rw [← String.toList_inj, ← hall.eq_iff (a := (expected, got)) (b := (expected', got'))]
  simp only [message_misnamed, String.toList_append, List.append_assoc]

/-! ### Reports -/

/-- Says that a report on `items` is settled before any requirement is put to an item. -/
def Roster.SettledByNames (r : Roster) (items : List Item) : Prop :=
  items = [] ∧ r.names = [] ∨ items.map Item.name ≠ r.names

/-- **Reports are exact**: they list every pair of an item and a requirement that it does not meet,
in order, where the requirement was put to the item between its neighbours; unless there is nothing
to check or the names differ, which is all they say then, whatever the requirements are. A roster
matches what it has nothing to report on. -/
theorem Roster.report_exact (r : Roster) (items : List Item) :
    (items = [] → r.names = [] →
        (r.report items).messages = ["empty item sequence with no name constraints"]) ∧
      (items.map Item.name ≠ r.names → (r.report items).messages =
        ["sequence order mismatch: expected " ++ Text.quotedList r.names ++ ", got " ++
          Text.quotedList (items.map Item.name)]) ∧
      (r.SettledByNames items →
        ∀ r' : Roster, r'.names = r.names → r'.report items = r.report items) ∧
      (¬ r.SettledByNames items → ListsShortfalls r items (r.report items).messages) ∧
      (∀ before i after, items = before ++ i :: after →
        Surroundings.previous? ⟨items, before.length⟩ = before.getLast? ∧
          Surroundings.next? ⟨items, before.length⟩ = after.head?) ∧
      ((r.report items).matched ↔ (r.report items).messages = []) ∧
      r.matched items = (r.report items).matched ∧
      ∀ sequences, r.matchedEach sequences = sequences.map r.matched := by
  have hempty : items = [] → r.names = [] → ∀ r' : Roster, r'.names = r.names →
      r'.report items = .failed .nothingToCheck := by
    intro hitems hnames r' hr'
    rw [report, hitems, hr', hnames]
    rfl
  have hmisnamed : items.map Item.name ≠ r.names → ∀ r' : Roster, r'.names = r.names →
      r'.report items = .failed (.misnamed r.names (items.map Item.name)) := by
    intro hne r' hr'
    have hnot : ¬ (items.isEmpty && r'.names.isEmpty) := by
      rw [Bool.and_eq_true, List.isEmpty_iff, List.isEmpty_iff, hr']
      rintro ⟨rfl, hnames⟩
      exact hne hnames.symm
    rw [report, if_neg hnot, hr', if_neg hne]
  refine ⟨?_, ?_, ?_, ?_, ?_, (r.consistent_report items).matched_iff, rfl, fun _ => rfl⟩
  · intro hitems hnames
    rw [hempty hitems hnames r rfl]
    rfl
  · intro hne
    rw [hmisnamed hne r rfl]
    rfl
  · rintro (⟨hitems, hnames⟩ | hne) r' hr'
    · rw [hempty hitems hnames r' hr', hempty hitems hnames r rfl]
    · rw [hmisnamed hne r' hr', hmisnamed hne r rfl]
  · intro h
    obtain ⟨hsome, hnames⟩ := not_or.1 h
    have hnames := not_not.1 hnames
    refine listsShortfalls (fun hnil => hsome ⟨hnil, ?_⟩) hnames
    rw [← hnames, hnil]
    rfl
  · rintro before i after rfl
    exact ⟨Surroundings.previous?_eq before after i, Surroundings.next?_eq before after i⟩

/-- Without the cards that are asked for no check is run, be there another or none. Of the two
cards the first does not meet the check, and the second one neither passes the test nor has a next
card to answer the check with. -/
theorem Roster.report_exact_cards :
    (Report.messages (Roster.report ⟨[.check "stop" fun _ _ => .ok false], [], false, rfl⟩ []) =
        ["empty item sequence with no name constraints"]) ∧
      (Report.messages
          (Roster.report ⟨[.check "stop" fun _ _ => .ok false], ["card"], false, rfl⟩ []) =
        ["sequence order mismatch: expected [\"card\"], got []"]) ∧
      (Roster.report ⟨[], ["card"], true, rfl⟩ [] =
        Roster.report ⟨[.check "stop" fun _ _ => .ok false], ["card"], false, rfl⟩ []) ∧
      (Surroundings.previous? ⟨[Item.named "deck", Item.named "card"], 1⟩ =
        some (Item.named "deck")) ∧
      ListsShortfalls ⟨[.test "rank" (.related .gt) (.one (.int 5)),
          .check "next" fun i x => x.next?.elim (.error "no next item") (.ok <| ·.name ≠ i.name)],
          ["card", "card"], true, rfl⟩
        [(Item.named "card").insert "rank" (.int 7), (Item.named "card").insert "rank" (.int 2)]
        ["card: next(..)", "card: rank > 5", "card: next raised: no next item"] := by
  have hempty := (Roster.report_exact ⟨[.check "stop" fun _ _ => .ok false], [], false, rfl⟩ []).1
    rfl rfl
  obtain ⟨-, hmisnamed, hsettled, -⟩ :=
    Roster.report_exact ⟨[.check "stop" fun _ _ => .ok false], ["card"], false, rfl⟩ []
  obtain ⟨-, -, -, -, hbetween, -⟩ :=
    Roster.report_exact ⟨[], [], false, rfl⟩ [Item.named "deck", Item.named "card"]
  refine ⟨hempty, (hmisnamed nofun).trans (by decide +kernel),
    hsettled (.inr nofun) ⟨[], ["card"], true, rfl⟩ rfl,
    (hbetween [Item.named "deck"] (Item.named "card") [] rfl).1, ?_⟩
  refine Eq.mp (congrArg (ListsShortfalls _ _) ?_) ((Roster.report_exact _ _).2.2.2.1 ?_)
  · decide +kernel
  · rintro (⟨hnil, -⟩ | hne)
    · cases hnil
    · exact hne rfl

end Lineup
