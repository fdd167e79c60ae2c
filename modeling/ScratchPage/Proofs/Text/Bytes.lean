import Mathlib.Data.Char
import Mathlib.Data.List.Lex
import Mathlib.Tactic.SplitIfs

/-!
# The order of texts by their bytes

Texts are compared by their characters. A greater character has greater bytes in UTF-8, and differs from
the smaller one at a byte that both of them have, so the order of the encoded texts is the same
(`bytes_lt_iff`).
-/

namespace ScratchPage.Text
set_option autoImplicit false

/-- The bytes of a text in UTF-8. -/
def bytes (text : String) : List UInt8 := text.toUTF8.data.toList

theorem bytes_eq_flatMap (text : String) : bytes text = text.toList.flatMap String.utf8EncodeChar := by
  have encoded : text.toUTF8 = text.toList.utf8Encode := String.utf8Encode_toList.symm
  rw [bytes, encoded, List.utf8Encode, List.data_toByteArray, List.toList_toArray]

theorem toNat_lt_limit (c : Char) : c.val.toNat < 0x110000 := by
  have valid := c.valid
  simp only [UInt32.isValidChar, Nat.isValidChar] at valid
  omega

/-- Of two numbers with a leading digit and three of six bits each, the greater one is greater at the first
digit in which they differ. -/
theorem digits_lex {v w : Nat} (less : v < w) :
    v / 262144 < w / 262144 ∨ v / 262144 = w / 262144 ∧
      (v / 4096 % 64 < w / 4096 % 64 ∨ v / 4096 % 64 = w / 4096 % 64 ∧
        (v / 64 % 64 < w / 64 % 64 ∨ v / 64 % 64 = w / 64 % 64 ∧ v % 64 < w % 64)) := by
  have low : v = v / 262144 * 262144 + v / 4096 % 64 * 4096 + v / 64 % 64 * 64 + v % 64 := by omega
  have top : w = w / 262144 * 262144 + w / 4096 % 64 * 4096 + w / 64 % 64 * 64 + w % 64 := by omega
  have second := Nat.mod_lt (w / 4096) (show 64 > 0 by decide)
  have third := Nat.mod_lt (w / 64) (show 64 > 0 by decide)
  have fourth := Nat.mod_lt w (show 64 > 0 by decide)
  generalize v / 262144 = v3, v / 4096 % 64 = v2, v / 64 % 64 = v1, v % 64 = v0 at *
  generalize w / 262144 = w3, w / 4096 % 64 = w2, w / 64 % 64 = w1, w % 64 = w0 at *
  omega

theorem toNat_leading {v : Nat} (high : v < 0x110000) : (v / 262144 % 8 + 240) % 256 = v / 262144 + 240 := by
  omega

theorem toNat_following (v : Nat) : (v % 64 + 128) % 256 = v % 64 + 128 := by omega

/-- Of two characters the greater one has the greater bytes, whatever follows. -/
theorem encode_append_lt {c d : Char} (lt : c < d) (rest other : List UInt8) :
    String.utf8EncodeChar c ++ rest < String.utf8EncodeChar d ++ other := by
  have less : c.val.toNat < d.val.toNat := lt
  have high := toNat_lt_limit d
  unfold String.utf8EncodeChar
  generalize c.val.toNat = v at less
  generalize d.val.toNat = w at less high
  have lex := digits_lex less
  dsimp only
  split_ifs <;>
    simp only [List.cons_append, List.nil_append, List.cons_lt_cons_iff, UInt8.lt_iff_toNat_lt,
      ← UInt8.toNat_inj, UInt8.toNat_ofNat', Nat.reducePow, toNat_leading high, toNat_leading (less.trans high),
      toNat_following] <;>
    omega

theorem nil_lt_encode_append (c : Char) (rest : List UInt8) : [] < String.utf8EncodeChar c ++ rest := by
  cases encoded : String.utf8EncodeChar c with
  | nil => exact absurd encoded (String.utf8EncodeChar_ne_nil)
  | cons b bs => exact List.nil_lt_cons b _

theorem flatMap_encode_lt {cs ds : List Char} (lt : cs < ds) :
    cs.flatMap String.utf8EncodeChar < ds.flatMap String.utf8EncodeChar := by
  induction lt with
  | nil => exact nil_lt_encode_append _ _
  | rel less => exact encode_append_lt less _ _
  | cons _ ih => exact List.append_left_lt ih

/-- The order of texts is the order of their bytes. -/
theorem bytes_lt_iff {a b : String} : bytes a < bytes b ↔ a < b := by
  rw [bytes_eq_flatMap, bytes_eq_flatMap, String.lt_iff]
  constructor
  · intro lt
    rcases lt_trichotomy a.toList b.toList with less | same | greater
    · exact less
    · rw [same] at lt
      exact absurd lt (List.lt_irrefl _)
    · exact absurd lt (List.lt_asymm (flatMap_encode_lt greater))
  · exact flatMap_encode_lt

end ScratchPage.Text
