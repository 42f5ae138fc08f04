import Mathlib.Data.String.Basic
import Mathlib.Tactic.Lemma

/-!
# The order of bytes

Texts are in the order of their characters, which is that of their bytes in UTF-8: of two characters
the smaller one has the smaller lead byte, or after equal ones the first smaller byte.
-/

namespace SqlMigrations.Proofs

/-- The bytes of a text in UTF-8. -/
def utf8 (text : String) : List UInt8 := text.toUTF8.data.toList

lemma utf8_eq_flatMap (text : String) : utf8 text = text.toList.flatMap String.utf8EncodeChar := by
  unfold utf8
  rw [String.toUTF8_eq_toByteArray, ← String.utf8Encode_toList, List.utf8Encode,
    List.toList_data_toByteArray]

lemma utf8_append (a b : String) : utf8 (a ++ b) = utf8 a ++ utf8 b := by
  rw [utf8_eq_flatMap, utf8_eq_flatMap, utf8_eq_flatMap, String.toList_append, List.flatMap_append]

lemma utf8_inj {a b : String} : utf8 a = utf8 b ↔ a = b := by
  refine ⟨fun h => ?_, fun h => h ▸ rfl⟩
  have hbytes : a.toByteArray = b.toByteArray :=
    ByteArray.ext (Array.ext' h)
  exact String.toByteArray_inj.mp hbytes

lemma length_utf8 (text : String) : (utf8 text).length = text.utf8ByteSize := by
  rw [← String.size_toByteArray]
  rfl

/-- No text has more characters than bytes. -/
lemma length_le_utf8ByteSize (text : String) : text.length ≤ text.utf8ByteSize := by
  have hchars : ∀ cs : List Char, cs.length ≤ (cs.flatMap String.utf8EncodeChar).length := by
    intro cs
    induction cs with
    | nil => exact Nat.zero_le _
    | cons c cs ih =>
      have hsize : 1 ≤ (String.utf8EncodeChar c).length := by
        rw [String.length_utf8EncodeChar]
        exact c.utf8Size_pos
      rw [List.flatMap_cons, List.length_append, List.length_cons]
      omega
  rw [← length_utf8, utf8_eq_flatMap, ← String.length_toList]
  exact hchars text.toList

section Bytes

variable {v w : Nat}

lemma cons_ofNat_lt (h : v < w) (hw : w < 256) (bytes bytes' : List UInt8) :
    UInt8.ofNat v :: bytes < UInt8.ofNat w :: bytes' := by
  rw [List.cons_lt_cons_iff, UInt8.lt_iff_toNat_lt, UInt8.toNat_ofNat_of_lt' hw,
    UInt8.toNat_ofNat_of_lt' (Nat.lt_trans h hw)]
  exact .inl h

/-- The last byte of a character counts where the bytes in front of it encode the same number. -/
lemma append_last_lt (front : Nat → List UInt8)
    (hfront : v / 64 < w / 64 → ∀ bytes bytes', front (v / 64) ++ bytes < front (w / 64) ++ bytes')
    (h : v < w) (bytes bytes' : List UInt8) :
    front (v / 64) ++ UInt8.ofNat (v % 64 + 128) :: bytes <
      front (w / 64) ++ UInt8.ofNat (w % 64 + 128) :: bytes' := by
  rcases Nat.lt_or_eq_of_le (Nat.div_le_div_right (c := 64) (Nat.le_of_lt h)) with hdiv | hdiv
  · exact hfront hdiv _ _
  · rw [hdiv]
    exact List.append_left_lt (cons_ofNat_lt (by omega) (by omega) bytes bytes')

end Bytes

lemma encode_lt {c d : Char} (h : c < d) (bytes bytes' : List UInt8) :
    String.utf8EncodeChar c ++ bytes < String.utf8EncodeChar d ++ bytes' := by
  have hlt : c.val.toNat < d.val.toNat := h
  have hd : d.val.toNat < 0x110000 := by
    rcases d.valid with hvalid | ⟨-, hvalid⟩
    · exact Nat.lt_trans hvalid (by decide)
    · exact hvalid
  have h4096 : ∀ n : Nat, n / 4096 = n / 64 / 64 := fun n => by omega
  have h262144 : ∀ n : Nat, n / 262144 = n / 64 / 64 / 64 := fun n => by omega
  fun_cases String.utf8EncodeChar c <;> fun_cases String.utf8EncodeChar d
  case case2.case2 =>
    exact append_last_lt (fun n => [UInt8.ofNat (n % 32 + 192)])
      (fun _ => cons_ofNat_lt (by omega) (by omega)) hlt bytes bytes'
  case case3.case3 v _ _ _ w _ _ _ =>
    rw [h4096 v, h4096 w]
    exact append_last_lt
      (fun n => [UInt8.ofNat (n / 64 % 16 + 224), UInt8.ofNat (n % 64 + 128)])
      (append_last_lt (fun n => [UInt8.ofNat (n % 16 + 224)]) fun _ =>
        cons_ofNat_lt (by omega) (by omega)) hlt bytes bytes'
  case case4.case4 v _ _ _ w _ _ _ =>
    rw [h4096 v, h4096 w, h262144 v, h262144 w]
    exact append_last_lt
      (fun n => [UInt8.ofNat (n / 64 / 64 % 8 + 240), UInt8.ofNat (n / 64 % 64 + 128),
        UInt8.ofNat (n % 64 + 128)])
      (append_last_lt
        (fun n => [UInt8.ofNat (n / 64 % 8 + 240), UInt8.ofNat (n % 64 + 128)])
        (append_last_lt (fun n => [UInt8.ofNat (n % 8 + 240)]) fun _ =>
          cons_ofNat_lt (by omega) (by omega))) hlt bytes bytes'
  -- Characters of different lengths differ in their lead bytes.
  all_goals exact cons_ofNat_lt (by omega) (by omega) _ _

lemma flatMap_encode_lt {cs ds : List Char} (h : cs < ds) :
    cs.flatMap String.utf8EncodeChar < ds.flatMap String.utf8EncodeChar := by
  induction h with
  | @nil d ds =>
    rw [List.flatMap_nil, List.flatMap_cons]
    cases hd : String.utf8EncodeChar d with
    | nil => exact absurd hd String.utf8EncodeChar_ne_nil
    | cons b bytes => exact List.nil_lt_cons _ _
  | rel hlt => exact encode_lt hlt _ _
  | cons _ ih => exact List.append_left_lt ih

theorem utf8_lt_utf8 {a b : String} : utf8 a < utf8 b ↔ a < b := by
  have hmono : ∀ {a b : String}, a < b → utf8 a < utf8 b := by
    intro a b h
    rw [utf8_eq_flatMap, utf8_eq_flatMap]
    exact flatMap_encode_lt h
  refine ⟨fun h => ?_, hmono⟩
  rcases lt_trichotomy a b with hab | rfl | hba
  · exact hab
  · exact absurd h (List.lt_irrefl _)
  · exact absurd h (List.lt_asymm (hmono hba))

theorem utf8_le_utf8 {a b : String} : utf8 a ≤ utf8 b ↔ a ≤ b := by
  rw [← not_lt, ← utf8_lt_utf8]
  rfl

end SqlMigrations.Proofs
