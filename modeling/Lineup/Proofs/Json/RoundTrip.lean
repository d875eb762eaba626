import Lineup.Json.Decode
import Lineup.Proofs.Json.Compact.Laws
import Lineup.Proofs.Json.Shapes
import Lineup.Proofs.Properties
import Lineup.Proofs.Rule.Parts

/-!
# Encoding and decoding

Values, property maps, items and rules are found again in the texts that they were encoded as, by
every library that keeps the laws (`Json.Library.decode?_text`). JSON has no numbers but finite
ones: another float among the properties has become null, and with another number in a rule nothing
is found. So what is proved of the parts of a rule is when they are decoded, and to what, which is
nothing but themselves.
-/

namespace Lineup

open Json

/-! ### Values and items -/

/-- What JSON keeps of a value. -/
def Value.kept : Value → Value
  | .float x => if x.isFinite then .float x else .null
  | v => v

theorem Value.kept_of_isFinite {v : Value} (h : v.isFinite) : v.kept = v := by
  cases v with
  | float x => exact if_pos h
  | null | bool | int | string => rfl

theorem Value.ofJson?_toJson (v : Value) : Value.ofJson? v.toJson.kept = some v.kept := by
  cases v with
  | null | bool | int | string => rfl
  | float x =>
    by_cases hx : x.isFinite
    · rw [toJson, Json.kept, kept, if_pos hx, if_pos hx]
      simp [ofJson?, asNull?, asBool?, asInt?, asFloat?, hx]
    · rw [toJson, Json.kept, kept, if_neg hx, if_neg hx]
      rfl

def Properties.kept (p : Properties) : Properties :=
  ⟨p.entries.map fun (k, v) => (k, v.kept), List.pairwise_map.2 p.ascending⟩

theorem Properties.kept_of_finite {p : Properties} (h : p.Finite) : p.kept = p := by
  refine ext ((List.map_congr_left fun e he => ?_).trans (List.map_id _))
  exact congrArg (e.1, ·) (Value.kept_of_isFinite (h e.2 (List.mem_map_of_mem he)))

theorem Properties.keys_kept (p : Properties) : p.kept.keys = p.keys :=
  List.map_map

theorem Properties.ofJson?_toJson (p : Properties) {d : Nat} (hd : 0 < d) :
    Properties.ofJson? d p.toJson.kept = some p.kept := by
  have hvalues : (p.entries.map fun e => (e.1, e.2.toJson.kept)).mapM
      (fun m => (Value.ofJson? m.2).map (m.1, ·)) = some p.kept.entries :=
    mapM_map_eq_some fun e _ => congrArg (Option.map (e.1, ·)) e.2.ofJson?_toJson
  rw [toJson, kept_ofFields, List.map_map, ofFields, ofJson?, textMembers?_map, guard, if_pos hd]
  change Option.bind ((p.entries.map fun e => (e.1, e.2.toJson.kept)).mapM
    fun m => (Value.ofJson? m.2).map (m.1, ·)) (fun l => some (Properties.ofList l)) = _
  rw [hvalues]
  exact congrArg some (ofList_entries p.kept)

theorem Item.ofJson?_toJson (i : Item) {d : Nat} (hd : 1 < d) :
    Item.ofJson? d i.toJson.kept = some ⟨i.name, i.properties.kept⟩ := by
  obtain ⟨e, rfl⟩ := Nat.exists_eq_add_of_le' hd
  have hrecord : fields? ["name", "properties"] i.toJson.kept = _ := fields?_kept rfl (by decide)
  rw [ofJson?, hrecord]
  simp [asString?, ofString, Json.kept, Properties.ofJson?_toJson]

/-! ### Rules -/

section Rules

variable {d : Nat}

theorem Position.ofJson?_toJson {p : Position} (h : p.toJson.depth ≤ d) :
    Position.ofJson? d p.toJson.kept = some p := by
  cases p with
  | absolute n | relative n =>
    obtain ⟨e, rfl, -⟩ := exists_of_depth_tagged_le h
    rfl

theorem Relation.ofJson?_toJson (d : Nat) (r : Relation) :
    Relation.ofJson? d r.toJson.kept = some r := by
  cases r <;> rfl

theorem Connective.ofJson?_toJson (d : Nat) (o : Connective) :
    Connective.ofJson? d (ofString o.label).kept = some o := by
  cases o <;> rfl

theorem Position.kept_toJson_ne_null (p : Position) : p.toJson.kept ≠ .null := by
  cases p <;> exact nofun

theorem optional?_position {p : Option Position} (h : (ofOption Position.toJson p).depth ≤ d) :
    optional? (Position.ofJson? d) (some (ofOption Position.toJson p).kept) = some p := by
  cases p with
  | none => rfl
  | some p =>
    rw [ofOption, optional?_some p.kept_toJson_ne_null, Position.ofJson?_toJson h]
    rfl

theorem Term.ofJson?_toJson {t : Term} (h : (ofFields t.fields).depth ≤ d) :
    Term.ofJson? d (ofFields t.fields).kept = some t := by
  obtain ⟨e, rfl, hfields⟩ := exists_of_depth_ofFields_le h
  have hposition := optional?_position (hfields _ (List.mem_cons_of_mem _ List.mem_cons_self))
  have hrecord : fields? ["identifier", "position"] (ofFields t.fields).kept = _ :=
    fields?_kept rfl (by decide)
  rw [Term.ofJson?, hrecord]
  simp [Term.fields, hposition, asString?, ofString, Json.kept]

/-- An operand is found again, unless it is a number for which JSON has none. -/
theorem Operand.ofJson?_toJson {v w : Operand} (h : v.toJson.depth ≤ d) :
    Operand.ofJson? d v.toJson.kept = some w ↔ v = w ∧ ∀ x ∈ v.numbers, x.isFinite := by
  cases v with
  | number x =>
    obtain ⟨e, rfl, -⟩ := exists_of_depth_tagged_le h
    change (asFloat? (Json.float x).kept).map Operand.number = _ ↔ _
    rw [Json.kept]
    by_cases hx : x.isFinite <;> simp [numbers, asFloat?, hx]
  | boolean b =>
    obtain ⟨e, rfl, -⟩ := exists_of_depth_tagged_le h
    change some (Operand.boolean b) = _ ↔ _
    simp [numbers]
  | string s =>
    obtain ⟨e, rfl, -⟩ := exists_of_depth_tagged_le h
    change some (Operand.string s) = _ ↔ _
    simp [numbers]
  | term t =>
    obtain ⟨e, rfl, ht⟩ := exists_of_depth_tagged_le h
    change (Term.ofJson? e (ofFields t.fields).kept).map Operand.term = _ ↔ _
    rw [Term.ofJson?_toJson ht]
    simp [numbers]

theorem Comparison.ofJson?_toJson {c c' : Comparison} (h : c.toJson.depth ≤ d) :
    Comparison.ofJson? d c.toJson.kept = some c' ↔
      c = c' ∧ ∀ x ∈ c.operand.numbers, x.isFinite := by
  obtain ⟨t, r, v⟩ := c
  obtain ⟨e, rfl, hfields⟩ := exists_of_depth_ofFields_le h
  obtain ⟨-, hposition, -, hoperand, -⟩ : _ ∧ _ ∧ _ ∧ _ ∧ _ := by
    simpa only [List.forall_mem_cons, Term.fields, List.cons_append, List.nil_append] using hfields
  have hposition := optional?_position hposition
  have hoperand := fun w => @Operand.ofJson?_toJson e v w hoperand
  have hrecord : fields? ["identifier", "position", "operator", "value"]
      (Comparison.toJson ⟨t, r, v⟩).kept = _ := fields?_kept rfl (by decide)
  rw [Comparison.ofJson?, hrecord]
  simp only [Term.fields, List.cons_append, List.nil_append, List.map_cons, List.map_nil,
    Option.bind_eq_bind, Option.bind_some, ofString, Json.kept, asString?, hposition,
    Relation.ofJson?_toJson, bind_eq_some_iff_of hoperand, Option.pure_def, Option.some_inj]
  exact and_comm

theorem Condition.kept_toJson_ne_null (c : Condition) : c.toJson.kept ≠ .null := by
  cases c <;> exact nofun

/-- A condition is found again if all its numbers are finite. -/
theorem Condition.ofJson?_toJson {c c' : Condition} (h : c.toJson.depth ≤ d) :
    Condition.ofJson? d c.toJson.kept = some c' ↔ c = c' ∧ ∀ x ∈ c.numbers, x.isFinite := by
  induction c generalizing d c' with
  | comparison c =>
    obtain ⟨e, rfl, hc⟩ := exists_of_depth_tagged_le h
    exact map_eq_some_iff_of fun _ => Comparison.ofJson?_toJson hc
  | group c ih =>
    obtain ⟨e, rfl, hc⟩ := exists_of_depth_tagged_le h
    exact map_eq_some_iff_of fun _ => ih hc
  | join op l r ihl ihr =>
    -- the tag and the record inside of it take up a level each
    obtain ⟨_, rfl, hjoin⟩ := exists_of_depth_tagged_le h
    obtain ⟨e, rfl, hfields⟩ := exists_of_depth_ofFields_le hjoin
    have hl := hfields _ List.mem_cons_self
    have hr := hfields _ (List.mem_cons_of_mem _ (List.mem_cons_of_mem _ List.mem_cons_self))
    have hrecord : fields? ["left", "op", "right"] (ofFields [("left", l.toJson),
      ("op", ofString op.label), ("right", r.toJson)]).kept = _ := fields?_kept rfl (by decide)
    simp only [Condition.ofJson?, toJson, variant?_kept, hrecord, List.map_cons, List.map_nil,
      Option.bind_eq_bind, Option.bind_some, Connective.ofJson?_toJson,
      bind_eq_some_iff_of fun _ => ihl hl, bind_eq_some_iff_of fun _ => ihr hr, Option.pure_def,
      Option.some_inj]
    rw [numbers, List.forall_mem_append, ← and_assoc, and_comm]

theorem Slot.ofJson?_toJson {s s' : Slot} (h : s.toJson.depth ≤ d) :
    Slot.ofJson? d s.toJson.kept = some s' ↔
      s = s' ∧ ∀ c ∈ s.conditions, ∀ x ∈ c.numbers, x.isFinite := by
  obtain ⟨n, c, p⟩ := s
  obtain ⟨e, rfl, hfields⟩ := exists_of_depth_ofFields_le h
  obtain ⟨-, hc, hp, -⟩ : _ ∧ _ ∧ _ ∧ _ := by
    simpa only [List.forall_mem_cons] using hfields
  have hconstraint : ∀ b, optional? (Condition.ofJson? e)
      (some (ofOption Condition.toJson c).kept) = some b ↔
        c = b ∧ ∀ a ∈ c, ∀ x ∈ a.numbers, x.isFinite := by
    rw [kept_ofOption]
    refine fun _ => optional?_ofOption (fun a _ => a.kept_toJson_ne_null) ?_
    rintro a rfl _
    exact Condition.ofJson?_toJson hc
  have hrecord : fields? ["identifier", "constraint", "position"] (Slot.toJson ⟨n, c, p⟩).kept =
    _ := fields?_kept rfl (by decide)
  rw [Slot.ofJson?, hrecord]
  simp only [List.map_cons, List.map_nil, Option.bind_eq_bind, Option.bind_some, ofString,
    Json.kept, asString?, bind_eq_some_iff_of hconstraint, optional?_position hp, Option.pure_def,
    Option.some_inj, conditions, Option.mem_toList]
  exact and_comm

theorem Pattern.ofJson?_toJson {p p' : Pattern} (h : p.toJson.depth ≤ d) :
    Pattern.ofJson? d p.toJson.kept = some p' ↔
      p = p' ∧ ∀ c ∈ p.conditions, ∀ x ∈ c.numbers, x.isFinite := by
  obtain ⟨e, rfl, hfields⟩ := exists_of_depth_ofFields_le h
  obtain ⟨e, rfl, hslots⟩ := exists_of_depth_array_le (hfields _ List.mem_cons_self)
  have hrecord : fields? ["elements"] p.toJson.kept = _ := fields?_kept rfl (by decide)
  rw [Pattern.ofJson?, hrecord, List.map_singleton, kept_array, List.map_map, conditions,
    List.forall_mem_flatMap]
  exact mapM_map_eq_some_iff fun s hs _ =>
    Slot.ofJson?_toJson (hslots _ (List.mem_map_of_mem hs))

theorem Pattern.kept_toJson_ne_null (p : Pattern) : p.toJson.kept ≠ .null := nofun

/-- A rule is found again if all its numbers are finite. -/
theorem Rule.ofJson?_toJson {r r' : Rule} (h : r.toJson.depth ≤ d) :
    Rule.ofJson? d r.toJson.kept = some r' ↔ r = r' ∧ ∀ x ∈ r.numbers, x.isFinite := by
  cases r with
  | simple p =>
    obtain ⟨_, rfl, hp⟩ := exists_of_depth_tagged_le h
    obtain ⟨e, rfl, -⟩ := exists_of_depth_ofFields_le hp
    rw [numbers, conditions, List.forall_mem_flatMap]
    exact map_eq_some_iff_of fun _ => Pattern.ofJson?_toJson hp
  | conditional c p q =>
    obtain ⟨_, rfl, hrule⟩ := exists_of_depth_tagged_le h
    obtain ⟨e, rfl, hfields⟩ := exists_of_depth_ofFields_le hrule
    obtain ⟨hc, hp, hq, -⟩ : _ ∧ _ ∧ _ ∧ _ := by
      simpa only [List.forall_mem_cons] using hfields
    have hrecord : fields? ["condition", "then_sequence", "else_sequence"] (ofFields
        [("condition", c.toJson), ("then_sequence", p.toJson),
          ("else_sequence", ofOption Pattern.toJson q)]).kept = _ := fields?_kept rfl (by decide)
    have helse : ∀ b, optional? (Pattern.ofJson? e)
        (some (ofOption Pattern.toJson q).kept) = some b ↔
          q = b ∧ ∀ a ∈ q, ∀ c ∈ a.conditions, ∀ x ∈ c.numbers, x.isFinite := by
      rw [kept_ofOption]
      refine fun _ => optional?_ofOption (fun a _ => a.kept_toJson_ne_null) ?_
      rintro a rfl _
      exact Pattern.ofJson?_toJson hq
    simp only [Rule.ofJson?, toJson, variant?_kept, hrecord, List.map_cons, List.map_nil,
      Option.bind_eq_bind, Option.bind_some,
      bind_eq_some_iff_of fun _ => Condition.ofJson?_toJson hc,
      bind_eq_some_iff_of fun _ => Pattern.ofJson?_toJson hp, bind_eq_some_iff_of helse,
      Option.pure_def, Option.some_inj]
    rw [numbers, List.forall_mem_flatMap, conditions, List.forall_mem_cons,
      List.forall_mem_append, List.forall_mem_flatMap, ← and_assoc, ← and_assoc, and_comm,
      and_assoc]
    simp only [Option.mem_toList, Option.mem_def]

end Rules

/-! ### Texts -/

theorem Value.depth_toJson (v : Value) : v.toJson.depth = 0 := by
  cases v <;> rfl

theorem Properties.depth_toJson (p : Properties) : p.toJson.depth ≤ 1 :=
  Nat.succ_le_succ <| membersDepth_le_iff.2 <|
    List.forall_mem_map.2 fun e _ => e.2.depth_toJson.le

theorem Item.depth_toJson (i : Item) : i.toJson.depth ≤ 2 :=
  Nat.succ_le_succ <| membersDepth_le_iff.2 <| List.forall_mem_cons.2
    ⟨Nat.zero_le _, List.forall_mem_singleton.2 i.properties.depth_toJson⟩

theorem Value.textual_toJson (v : Value) : v.toJson.Textual := by
  cases v with
  | null => exact .null
  | bool b => exact .bool b
  | int n => exact .int n
  | float x => exact .float x
  | string s => exact .string s

theorem Properties.textual_toJson (p : Properties) : p.toJson.Textual :=
  .fields (List.forall_mem_map.2 fun e _ => e.2.textual_toJson)

theorem Item.textual_toJson (i : Item) : i.toJson.Textual :=
  .fields (List.forall_mem_cons.2
    ⟨.string _, List.forall_mem_singleton.2 i.properties.textual_toJson⟩)

theorem Position.textual_toJson (p : Position) : p.toJson.Textual := by
  cases p <;> exact .tagged (.int _)

theorem Term.textual_fields (t : Term) : ∀ m ∈ t.fields, m.2.Textual :=
  List.forall_mem_cons.2
    ⟨.string _, List.forall_mem_singleton.2 (.ofOption Position.textual_toJson _)⟩

theorem Operand.textual_toJson (v : Operand) : v.toJson.Textual := by
  cases v with
  | number x => exact .tagged (.float x)
  | boolean b => exact .tagged (.bool b)
  | string s => exact .tagged (.string s)
  | term t => exact .tagged (.fields t.textual_fields)

theorem Comparison.textual_toJson (c : Comparison) : c.toJson.Textual :=
  .fields (List.forall_mem_append.2 ⟨c.subject.textual_fields, List.forall_mem_cons.2
    ⟨.string _, List.forall_mem_singleton.2 c.operand.textual_toJson⟩⟩)

theorem Condition.textual_toJson (c : Condition) : c.toJson.Textual := by
  induction c with
  | comparison c => exact .tagged c.textual_toJson
  | group c ih => exact .tagged ih
  | join op l r ihl ihr =>
    exact .tagged (.fields (List.forall_mem_cons.2 ⟨ihl, List.forall_mem_cons.2
      ⟨.string _, List.forall_mem_singleton.2 ihr⟩⟩))

theorem Slot.textual_toJson (s : Slot) : s.toJson.Textual :=
  .fields (List.forall_mem_cons.2 ⟨.string _, List.forall_mem_cons.2
    ⟨.ofOption Condition.textual_toJson _,
      List.forall_mem_singleton.2 (.ofOption Position.textual_toJson _)⟩⟩)

theorem Pattern.textual_toJson (p : Pattern) : p.toJson.Textual :=
  .fields (List.forall_mem_singleton.2 (.array (List.forall_mem_map.2 fun s _ => s.textual_toJson)))

theorem Rule.textual_toJson (r : Rule) : r.toJson.Textual := by
  cases r with
  | simple p => exact .tagged p.textual_toJson
  | conditional c p q =>
    exact .tagged (.fields (List.forall_mem_cons.2 ⟨c.textual_toJson, List.forall_mem_cons.2
      ⟨p.textual_toJson, List.forall_mem_singleton.2 (.ofOption Pattern.textual_toJson _)⟩⟩))

/-! ### Libraries -/

namespace Json.Library

variable {L : Library}

theorem Lawful.decode?_text_of_textual (hL : L.Lawful) {α : Type} {j : Json} (hj : j.Textual)
    (hdepth : j.depth ≤ L.maxDepth) (ofJson? : Nat → Json → Option α) :
    L.decode? ofJson? (L.text j) = ofJson? L.maxDepth j.kept := by
  rw [decode?, hL.reads hj hdepth, Option.bind_some]

/-- **What was encoded is found again in its text**, whatever library is used: a rule if all its
numbers are finite, as long as its brackets are not nested too deep, and nothing otherwise; values,
property maps and items always, except that floats that are not finite have become null. -/
theorem decode?_text (hL : L.Lawful) :
    (∀ r : Rule, r.toJson.depth ≤ L.maxDepth → L.decode? Rule.ofJson? (L.text r.toJson) =
        if ∀ x ∈ r.numbers, x.isFinite then some r else none) ∧
      (∀ v : Value, L.decode? (fun _ => Value.ofJson?) (L.text v.toJson) = some v.kept) ∧
      (∀ p : Properties, L.decode? Properties.ofJson? (L.text p.toJson) = some p.kept ∧
        p.kept.keys = p.keys) ∧
      (∀ i : Item, L.decode? Item.ofJson? (L.text i.toJson) =
        some ⟨i.name, i.properties.kept⟩) ∧
      (∀ v : Value, v.isFinite → v.kept = v) ∧
      (∀ x : Binary64, x.isFinite = false → (Value.float x).kept = .null) ∧
      ∀ p : Properties, p.Finite → p.kept = p := by
  refine ⟨fun r h => ?_, fun v => ?_, fun p => ⟨?_, p.keys_kept⟩, fun i => ?_,
    fun v => Value.kept_of_isFinite, fun x hx => ?_, fun p => Properties.kept_of_finite⟩
  · rw [hL.decode?_text_of_textual r.textual_toJson h]
    refine Option.ext fun s => ?_
    rw [Rule.ofJson?_toJson h]
    split
    · rename_i hfinite
      rw [and_iff_left hfinite, Option.some_inj]
    · rename_i hfinite
      exact iff_of_false (fun hs => hfinite hs.2) nofun
  · have hdepth : v.toJson.depth ≤ L.maxDepth := v.depth_toJson ▸ Nat.zero_le _
    rw [hL.decode?_text_of_textual v.textual_toJson hdepth, Value.ofJson?_toJson]
  · have hone : 1 ≤ L.maxDepth := Nat.le_of_succ_le hL.two_le_maxDepth
    rw [hL.decode?_text_of_textual p.textual_toJson (p.depth_toJson.trans hone),
      Properties.ofJson?_toJson p hone]
  · have hdepth := i.depth_toJson.trans hL.two_le_maxDepth
    rw [hL.decode?_text_of_textual i.textual_toJson hdepth,
      Item.ofJson?_toJson i hL.two_le_maxDepth]
  · exact if_neg (Bool.eq_false_iff.1 hx)

/-- With the compact library, the group, the zero with a sign, the negative index and the texts
that look like JSON all stay as they are. Where NaN was there is no value, and where infinity was
there is no rule. -/
theorem decode?_text_grouped :
    compact.decode? Rule.ofJson? (compact.text (Rule.toJson (.conditional
        (.group (.comparison ⟨⟨"rank", some (.relative (-1))⟩, .ge, .number (.ofParts true 0)⟩))
        [⟨"null", none, some (.absolute (-2))⟩, ⟨"\"[\n", some (.comparison
          ⟨⟨"suit", none⟩, .ne, .string "\x7b\x7d"⟩), none⟩] (some [])))) =
      some (.conditional
        (.group (.comparison ⟨⟨"rank", some (.relative (-1))⟩, .ge, .number (.ofParts true 0)⟩))
        [⟨"null", none, some (.absolute (-2))⟩, ⟨"\"[\n", some (.comparison
          ⟨⟨"suit", none⟩, .ne, .string "\x7b\x7d"⟩), none⟩] (some [])) ∧
      compact.decode? Rule.ofJson? (compact.text (Rule.toJson (.simple [⟨"ace", some (.comparison
        ⟨⟨"rank", none⟩, .lt, .number (.ofParts false Binary64.infinity)⟩), none⟩]))) = none ∧
      compact.decode? Properties.ofJson? (compact.text (Properties.ofList
        [("high", .int Int64.maxValue), ("low", .float (.ofParts true 0)),
          ("seen", .string "null")]).toJson) =
          some (.ofList [("high", .int Int64.maxValue), ("low", .float (.ofParts true 0)),
            ("seen", .string "null")]) ∧
      compact.decode? (fun _ => Value.ofJson?) (compact.text (Value.float (.ofInt 1)).toJson) =
        some (.float (.ofInt 1)) ∧
      compact.decode? (fun _ => Value.ofJson?)
        (compact.text (Value.float (.ofParts false Binary64.quietNaN)).toJson) = some .null := by
  obtain ⟨hrule, hvalue, hproperties, -, hfinite, hnull, hall⟩ := decode?_text compact_lawful
  refine ⟨(hrule _ (by decide)).trans (if_pos (by decide)),
    (hrule _ (by decide)).trans (if_neg (by decide)), ?_, ?_, ?_⟩
  · exact (hproperties _).1.trans (congrArg some (hall _ (by decide)))
  · exact (hvalue _).trans (congrArg some (hfinite _ (by decide +kernel)))
  · exact (hvalue _).trans (congrArg some (hnull _ (by decide)))

end Json.Library

end Lineup
