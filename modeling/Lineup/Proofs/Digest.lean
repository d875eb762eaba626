import Lineup.Proofs.Delimits
import Lineup.Value.Equality

/-!
# Digests

Digests are written one behind another, and what was written can be told from them as long as none
of them is the start of a different one (`Delimits`). Texts are delimited by their last byte, which
is none that UTF-8 knows.
-/

namespace Lineup

/-- Equality is an equivalence if it is that of what is written. -/
theorem equivBEq_of_eq_iff {α β : Type} [BEq α] {f : α → β} (h : ∀ a b, f a = f b ↔ a == b) :
    EquivBEq α where
  rfl := (h _ _).1 rfl
  symm hab := (h _ _).1 ((h _ _).2 hab).symm
  trans hab hbc := (h _ _).1 (((h _ _).2 hab).trans ((h _ _).2 hbc))

/-! ### Texts -/

/-- No byte of UTF-8 has all bits set. -/
theorem toNat_lt_of_mem_utf8EncodeChar {c : Char} {b : UInt8} (h : b ∈ String.utf8EncodeChar c) :
    b.toNat < 0xff := by
  rw [String.utf8EncodeChar] at h
  split_ifs at h <;> simp only [List.mem_cons, List.not_mem_nil, or_false] at h
  · obtain rfl := h
    rw [UInt8.toNat_ofNat']
    omega
  · rcases h with rfl | rfl <;> rw [UInt8.toNat_ofNat'] <;> omega
  · rcases h with rfl | rfl | rfl <;> rw [UInt8.toNat_ofNat'] <;> omega
  · rcases h with rfl | rfl | rfl | rfl <;> rw [UInt8.toNat_ofNat'] <;> omega

theorem toList_toUTF8 (s : String) :
    s.toUTF8.data.toList = s.toList.flatMap String.utf8EncodeChar := by
  rw [String.toUTF8_eq_toByteArray, ← String.utf8Encode_toList, List.utf8Encode,
    List.data_toByteArray]

theorem toList_toUTF8_inj {s t : String} : s.toUTF8.data.toList = t.toUTF8.data.toList ↔ s = t := by
  rw [Array.toList_inj, ← ByteArray.ext_iff, String.toUTF8_eq_toByteArray,
    String.toUTF8_eq_toByteArray, String.toByteArray_inj]

/-- What comes before the last byte of a text is the text, whatever comes behind. -/
theorem takeWhile_textDigest (s : String) (l : List UInt64) :
    (textDigest s ++ l).takeWhile (· ≠ 0xff) = s.toUTF8.data.toList.map UInt8.toUInt64 := by
  have hbytes : ∀ w ∈ s.toUTF8.data.toList.map UInt8.toUInt64, decide (w ≠ 0xff) := by
    intro w hw
    obtain ⟨b, hb, rfl⟩ := List.mem_map.1 hw
    rw [toList_toUTF8] at hb
    obtain ⟨c, -, hb⟩ := List.mem_flatMap.1 hb
    have hlt := toNat_lt_of_mem_utf8EncodeChar hb
    refine decide_eq_true fun hlast => ?_
    rw [← UInt8.toNat_toUInt64, hlast] at hlt
    exact absurd hlt (by decide)
  rw [textDigest, List.append_assoc, List.takeWhile_append_of_pos hbytes]
  exact List.append_nil _

theorem delimits_textDigest : Delimits textDigest (· = ·) where
  ne_nil _ := List.append_ne_nil_of_right_ne_nil _ (List.cons_ne_nil _ _)
  append_iff := by
    intro s t u v
    constructor
    · intro h
      have htake := congrArg (List.takeWhile (· ≠ 0xff)) h
      rw [takeWhile_textDigest, takeWhile_textDigest] at htake
      have hinj : Function.Injective UInt8.toUInt64 := fun _ _ => UInt8.toUInt64_inj.1
      obtain rfl := toList_toUTF8_inj.1 (List.map_injective_iff.2 hinj htake)
      exact ⟨rfl, List.append_cancel_left h⟩
    · rintro ⟨rfl, rfl⟩
      rfl

end Lineup
