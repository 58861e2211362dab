import Mathlib.Data.List.Basic
import ScopeComplexity.Text.Utf8

namespace ScopeComplexity.Text

theorem foldlM_loop_eq {β : Type} (f : β → UInt8 → β) (bytes : ByteArray) (i j : Nat) (b : β)
    (rest : bytes.size ≤ j + i) :
    ByteArray.foldlM.loop (m := Id) (fun b byte => pure (f b byte)) bytes bytes.size (Nat.le_refl _) i j b
      = (bytes.data.toList.drop j).foldl f b := by
  induction i generalizing j b with
  | zero =>
    rw [List.drop_eq_nil_of_le (by simpa using rest), ByteArray.foldlM.loop]
    split <;> rfl
  | succ i ih =>
    rw [ByteArray.foldlM.loop]
    split
    next inside =>
      have cut : bytes.data.toList.drop j = bytes[j] :: bytes.data.toList.drop (j + 1) :=
        List.drop_eq_getElem_cons (by simpa using inside)
      rw [cut, List.foldl_cons]
      exact ih (j + 1) _ (by omega)
    next outside =>
      rw [List.drop_eq_nil_of_le (by simpa using outside)]
      rfl

theorem foldl_bytes {β : Type} (f : β → UInt8 → β) (b : β) (bytes : ByteArray) :
    bytes.foldl f b = bytes.data.toList.foldl f b := by
  have all := foldlM_loop_eq f bytes bytes.size 0 b (Nat.le_add_left _ _)
  rw [List.drop_zero] at all
  rw [← all, ByteArray.foldl, ByteArray.foldlM, dif_pos (Nat.le_refl _)]
  rfl

namespace Decoder

def between (text : String) (replaced : Bool) : Decoder := { text, replaced }

variable {text : String} {replaced : Bool} {byte : UInt8} {owed low high value : Nat}

theorem feed_last (above : low ≤ byte.toNat) (below : byte.toNat ≤ high) :
    feed ⟨1, low, high, value, text, replaced⟩ byte
      = between (text.push (Char.ofNat (value * 64 + (byte.toNat - 0x80)))) replaced := by
  simp [feed, between, above, below]

theorem feed_inner (above : low ≤ byte.toNat) (below : byte.toNat ≤ high) :
    feed ⟨owed + 2, low, high, value, text, replaced⟩ byte
      = ⟨owed + 1, 0x80, 0xbf, value * 64 + (byte.toNat - 0x80), text, replaced⟩ := by
  simp [feed, above, below]

theorem feed_between (text : String) (replaced : Bool) (byte : UInt8) :
    feed (between text replaced) byte = (between text replaced).begin byte.toNat := rfl

variable {b : Nat}

theorem begin_one (ascii : b < 0x80) :
    (between text replaced).begin b = between (text.push (Char.ofNat b)) replaced := by
  simp [begin, between, ascii]

theorem begin_two (above : 0xc2 ≤ b) (below : b < 0xe0) :
    (between text replaced).begin b = ⟨1, 0x80, 0xbf, b - 0xc0, text, replaced⟩ := by
  rw [begin, if_neg (by omega), if_neg (by omega), if_pos below]
  rfl

theorem begin_three (above : 0xe0 ≤ b) (below : b < 0xf0) :
    (between text replaced).begin b
      = ⟨2, if b = 0xe0 then 0xa0 else 0x80, if b = 0xed then 0x9f else 0xbf, b - 0xe0, text, replaced⟩ := by
  rw [begin, if_neg (by omega), if_neg (by omega), if_neg (by omega)]
  by_cases first : b = 0xe0
  · subst first
    rfl
  · by_cases surrogate : b = 0xed
    · subst surrogate
      rfl
    · simp [first, surrogate, below, between]

theorem begin_four (above : 0xf0 ≤ b) (below : b ≤ 0xf4) :
    (between text replaced).begin b
      = ⟨3, if b = 0xf0 then 0x90 else 0x80, if b = 0xf4 then 0x8f else 0xbf, b - 0xf0, text, replaced⟩ := by
  have cases : b = 0xf0 ∨ b = 0xf1 ∨ b = 0xf2 ∨ b = 0xf3 ∨ b = 0xf4 := by omega
  rcases cases with rfl | rfl | rfl | rfl | rfl <;> rfl

theorem foldl_feed_utf8EncodeChar (c : Char) (text : String) (replaced : Bool) :
    (String.utf8EncodeChar c).foldl feed (between text replaced) = between (text.push c) replaced := by
  have same : Char.ofNat c.val.toNat = c := Char.ofNat_toNat c
  have valid : c.val.toNat < 0xd800 ∨ 0xdfff < c.val.toNat ∧ c.val.toNat < 0x110000 := c.valid
  rw [String.utf8EncodeChar]
  generalize c.val.toNat = v at same valid
  subst same
  have size : UInt8.size = 256 := rfl
  have last := UInt8.toNat_ofNat_of_lt' (n := v % 64 + 128) (by omega)
  have lastButOne := UInt8.toNat_ofNat_of_lt' (n := v / 64 % 64 + 128) (by omega)
  -- one to four bytes, by the size of the number
  split
  next one =>
    have first := UInt8.toNat_ofNat_of_lt' (n := v) (by omega)
    rw [List.foldl_cons, feed_between, first, begin_one (by omega), List.foldl_nil]
  next =>
    split
    next two =>
      have first := UInt8.toNat_ofNat_of_lt' (n := v / 64 % 32 + 192) (by omega)
      have value : (v / 64 % 32 + 192 - 0xc0) * 64 + (v % 64 + 128 - 0x80) = v := by omega
      rw [List.foldl_cons, feed_between, first, begin_two (by omega) (by omega),
        List.foldl_cons, feed_last (by omega) (by omega), last, value, List.foldl_nil]
    next =>
      split
      next three =>
        have first := UInt8.toNat_ofNat_of_lt' (n := v / 4096 % 16 + 224) (by omega)
        have value : ((v / 4096 % 16 + 224 - 0xe0) * 64 + (v / 64 % 64 + 128 - 0x80)) * 64
            + (v % 64 + 128 - 0x80) = v := by omega
        rw [List.foldl_cons, feed_between, first, begin_three (by omega) (by omega),
          List.foldl_cons, feed_inner (by split <;> omega) (by split <;> omega), lastButOne,
          List.foldl_cons, feed_last (by omega) (by omega), last, value, List.foldl_nil]
      next =>
        have first := UInt8.toNat_ofNat_of_lt' (n := v / 262144 % 8 + 240) (by omega)
        have second := UInt8.toNat_ofNat_of_lt' (n := v / 4096 % 64 + 128) (by omega)
        have value : (((v / 262144 % 8 + 240 - 0xf0) * 64 + (v / 4096 % 64 + 128 - 0x80)) * 64
            + (v / 64 % 64 + 128 - 0x80)) * 64 + (v % 64 + 128 - 0x80) = v := by omega
        rw [List.foldl_cons, feed_between, first, begin_four (by omega) (by omega),
          List.foldl_cons, feed_inner (by split <;> omega) (by split <;> omega), second,
          List.foldl_cons, feed_inner (by omega) (by omega), lastButOne,
          List.foldl_cons, feed_last (by omega) (by omega), last, value, List.foldl_nil]

theorem foldl_feed_bytes (characters : List Char) (text : String) (replaced : Bool) :
    (characters.flatMap String.utf8EncodeChar).foldl feed (between text replaced)
      = between (characters.foldl String.push text) replaced := by
  induction characters generalizing text with
  | nil => rfl
  | cons c characters ih =>
    rw [List.flatMap_cons, List.foldl_append, foldl_feed_utf8EncodeChar, ih, List.foldl_cons]

theorem toList_foldl_push (characters : List Char) (text : String) :
    (characters.foldl String.push text).toList = text.toList ++ characters := by
  induction characters generalizing text with
  | nil => rw [List.foldl_nil, List.append_nil]
  | cons c characters ih => rw [List.foldl_cons, ih, String.toList_push, List.append_assoc, List.singleton_append]

theorem run_toUTF8 (text : String) : run text.toUTF8 = between text false := by
  have bytes : text.toUTF8.data.toList = text.toList.flatMap String.utf8EncodeChar := by
    conv_lhs => rw [String.toUTF8_eq_toByteArray, ← String.ofList_toList (s := text), String.toByteArray_ofList]
    rw [List.utf8Encode, List.toList_data_toByteArray]
  have whole : text.toList.foldl String.push "" = text := by
    rw [← String.toList_inj, toList_foldl_push]
    rfl
  have all := foldl_feed_bytes text.toList "" false
  rw [whole] at all
  rw [run, foldl_bytes, bytes]
  exact congrArg finish all

end Decoder

theorem decode_toUTF8 (text : String) : decode text.toUTF8 = text := by
  rw [decode, Decoder.run_toUTF8]
  rfl

theorem decode?_toUTF8 (text : String) : decode? text.toUTF8 = some text := by
  rw [decode?, Decoder.run_toUTF8]
  rfl

end ScopeComplexity.Text
