import StackScript.Bytecode.Image
import StackScript.Proofs.Computations

/-!
# Images Read Back

An image is read back as the bytecode it was written from, whatever bytes stand behind it. It is
read from its front alone, so that nothing in it can be taken for the end: from every shorter
beginning of it, the bytes end too early. An image with another mark or another version, but the
same payload, is taken apart just as well, and refused only then.

All of this follows from one property of the rules that read a part of an image, which rules in
sequence have if each of them has it.

## Main definitions

* `ImageReader.Reads`: **a rule reads bytes as a value**, and no fewer bytes as anything.
* `Varint.capacity`: how many numbers a reader of variable-length numbers can tell apart.
* `Image.written`: the bytes of an image under any mark and version.
* `Bytecode.Storable`: a bytecode whose lengths are numbers of 64 bits.

## Main results

* `ImageReader.Reads.bind`: rules in sequence.
* `ImageReader.reads_number`, `reads_items`, `reads_value`: the parts of an image.
* `Bytecode.ofImage_image`: **images read back**.
-/

namespace StackScript

namespace ImageReader

/-- A rule **reads** bytes as a value: it takes these bytes and leaves alone whatever stands behind
them, and where any of them are missing at the end, it runs out of bytes. -/
structure Reads {α : Type} (rule : ImageReader α) (bytes : List UInt8) (a : α) : Prop where
  whole : ∀ behind, rule (bytes ++ behind) = .ok a behind
  cut : ∀ {front missing}, bytes = front ++ missing → missing ≠ [] →
    ∃ left, rule front = .error .endOfBytes left

variable {α β : Type} {rule : ImageReader α} {next : α → ImageReader β} {bytes more : List UInt8}
  {a : α} {b : β}

/-- To yield a value takes no bytes. -/
theorem Reads.pure (a : α) : Reads (pure a) [] a where
  whole _ := rfl
  cut {front missing} split some := by
    have none := (List.append_eq_nil_iff.mp split.symm).2
    exact absurd none some

/-- **Rules in sequence** read bytes in sequence: a cut hits either the bytes of the first rule, or
those of the second when the first has all of its own. -/
theorem Reads.bind (first : rule.Reads bytes a) (second : (next a).Reads more b) :
    (rule >>= next).Reads (bytes ++ more) b where
  whole behind := by
    rw [List.append_assoc, bind_run, first.whole]
    exact second.whole behind
  cut {front missing} split some := by
    have inSecond {front missing : List UInt8} (split : more = front ++ missing)
        (some : missing ≠ []) : ∃ left, (rule >>= next) (bytes ++ front) =
          .error .endOfBytes left := by
      rw [bind_run, first.whole]
      exact second.cut split some
    rcases List.append_eq_append_iff.mp split with ⟨before, rfl, rest⟩ | ⟨gone, inFirst, rfl⟩
    · exact inSecond rest some
    · by_cases all : gone = []
      · subst all
        rw [List.append_nil] at inFirst
        subst inFirst
        have entry := @inSecond [] more rfl some
        rwa [List.append_nil] at entry
      · obtain ⟨left, failed⟩ := first.cut inFirst all
        exact ⟨left, by rw [bind_run, failed]⟩

/-- A value may be made of what was read. -/
theorem Reads.map (f : α → β) (h : rule.Reads bytes a) :
    Reads (do return f (← rule)) bytes (f a) := by
  have all : Reads (do return f (← rule)) (bytes ++ []) (f a) := h.bind (.pure (f a))
  rwa [List.append_nil] at all

/-- A byte is read as itself. -/
theorem reads_byte (byte : UInt8) : ImageReader.byte.Reads [byte] byte where
  whole _ := rfl
  cut {front missing} split some := by
    cases front with
    | nil => exact ⟨[], rfl⟩
    | cons head tail =>
        rw [List.cons_append, List.cons.injEq] at split
        exact absurd (List.append_eq_nil_iff.mp split.2.symm).2 some

/-! ### Numbers -/

end ImageReader

/-- How many numbers have at most `more` bytes behind their first, the last of all at most
`lastByte`. -/
def Varint.capacity (lastByte : Nat) : Nat → Nat
  | 0 => lastByte + 1
  | more + 1 => 128 * capacity lastByte more

namespace ImageReader

/-- A small number is a single byte. -/
theorem encodeWithin_of_lt {within n : Nat} (h : n < 128) :
    Varint.encodeWithin within n = [UInt8.ofNat n] := by
  cases within with
  | zero => rfl
  | succ within => rw [Varint.encodeWithin, if_pos h]

/-- A number that is small enough for a reader is read back, also when it could have been longer
where it was written. -/
theorem reads_numberWithin {lastByte more within n : Nat} (small : lastByte < 128)
    (room : more ≤ within) (fits : n < Varint.capacity lastByte more) :
    (numberWithin lastByte more).Reads (Varint.encodeWithin within n) n := by
  induction more generalizing within n with
  | zero =>
      rw [Varint.capacity] at fits
      have exact : (UInt8.ofNat n).toNat = n :=
        UInt8.toNat_ofNat_of_lt' (show n < 256 by omega)
      rw [encodeWithin_of_lt (by omega), numberWithin]
      refine (reads_byte _).bind ?_
      rw [exact, if_pos (by omega)]
      exact .pure n
  | succ more ih =>
      obtain ⟨within, rfl⟩ : ∃ k, within = k + 1 := ⟨within - 1, by omega⟩
      rw [Varint.capacity] at fits
      rw [numberWithin]
      by_cases short : n < 128
      · have exact : (UInt8.ofNat n).toNat = n :=
          UInt8.toNat_ofNat_of_lt' (show n < 256 by omega)
        rw [encodeWithin_of_lt short]
        refine (reads_byte _).bind ?_
        rw [exact, if_pos short]
        exact .pure n
      · have exact : (UInt8.ofNat (n % 128 + 128)).toNat = n % 128 + 128 :=
          UInt8.toNat_ofNat_of_lt' (show n % 128 + 128 < 256 by omega)
        rw [Varint.encodeWithin, if_neg short]
        refine (reads_byte _).bind ?_
        rw [exact, if_neg (by omega)]
        have high : (numberWithin lastByte more).Reads
            (Varint.encodeWithin within (n / 128)) (n / 128) := ih (by omega) (by omega)
        have whole : n % 128 + 128 - 128 + 128 * (n / 128) = n := by omega
        have all := high.map fun high => n % 128 + 128 - 128 + 128 * high
        rwa [whole] at all

/-- Numbers are read back in any word size that holds them. -/
theorem reads_number {width : Varint.Width} {n : Nat} (small : width.lastByte < 128)
    (room : width.more ≤ Varint.word64.more)
    (fits : n < Varint.capacity width.lastByte width.more) :
    (number width).Reads (Varint.encode n) n :=
  reads_numberWithin small room fits

/-- Lengths are read back. -/
theorem reads_length {n : Nat} (fits : n < UInt64.size) :
    (number Varint.word64).Reads (Varint.encode n) n :=
  reads_number (by decide) (by decide) fits

/-! ### Sequences -/

/-- Items are read back behind those already read. -/
theorem reads_items {item : ImageReader α} {encode : α → List UInt8} (read : Array α)
    {xs : List α} (each : ∀ x ∈ xs, item.Reads (encode x) x) :
    (items item read xs.length).Reads (xs.flatMap encode) (read ++ xs.toArray) := by
  induction xs generalizing read with
  | nil =>
      rw [Array.append_empty]
      exact .pure read
  | cons x rest ih =>
      have behind := ih (read.push x) fun y later => each y (List.mem_cons_of_mem x later)
      have same : read.push x ++ rest.toArray = read ++ (x :: rest).toArray := by
        apply Array.ext'
        simp
      rw [same] at behind
      rw [List.flatMap_cons]
      exact (each x List.mem_cons_self).bind behind

/-- Items with their number in front are read back. -/
theorem reads_counted {item : ImageReader α} {encode : α → List UInt8} {xs : List α}
    (each : ∀ x ∈ xs, item.Reads (encode x) x) (few : xs.length < UInt64.size) :
    (counted item).Reads (Varint.encode xs.length ++ xs.flatMap encode) xs.toArray := by
  have all := reads_items #[] each
  rw [Array.empty_append] at all
  exact (reads_length few).bind all

/-- A run of bytes is read as these bytes, if their number is known. -/
theorem reads_bytes (bytes : List UInt8) :
    (items byte #[] bytes.length).Reads bytes bytes.toArray := by
  have all : (items byte #[] bytes.length).Reads (bytes.flatMap fun b => [b])
      (#[] ++ bytes.toArray) := reads_items #[] fun b _ => reads_byte b
  rwa [Array.empty_append, List.flatMap_singleton'] at all

/-- Bytes with their number in front are read back. -/
theorem reads_countedBytes {bytes : List UInt8} (few : bytes.length < UInt64.size) :
    (counted byte).Reads (Image.counted bytes) bytes.toArray :=
  (reads_length few).bind (reads_bytes bytes)

/-! ### Values -/

/-- The bytes of a pattern make up its bits. -/
theorem foldr_patternBytes (x : Binary64) :
    (Image.patternBytes x).foldr (fun b high => b.toNat + 256 * high) 0 = x.bits.toNat := by
  have below := x.bits.toNat_lt
  simp only [Image.patternBytes, List.range, List.range.loop, List.map_cons, List.map_nil,
    List.foldr_cons, List.foldr_nil, UInt8.toNat_ofNat', Nat.shiftRight_eq_div_pow]
  omega

/-- A pattern reads back from its eight bytes, the lowest one first. -/
theorem reads_pattern (x : Binary64) : pattern.Reads (Image.patternBytes x) x := by
  have eight : (Image.patternBytes x).length = 8 := by simp [Image.patternBytes]
  have bytes := reads_bytes (Image.patternBytes x)
  rw [eight] at bytes
  have all := bytes.map fun bytes =>
    (⟨UInt64.ofNat (bytes.foldr (fun b high => b.toNat + 256 * high) 0)⟩ : Binary64)
  rwa [List.foldr_toArray, foldr_patternBytes, UInt64.ofNat_toNat] at all

/-- A text reads back from its bytes with their number in front. -/
theorem reads_text {s : String} (few : s.utf8ByteSize < UInt64.size) :
    text.Reads (Image.counted s.toByteArray.data.toList) s := by
  have bytes : (counted byte).Reads (Image.counted s.toByteArray.data.toList)
      s.toByteArray.data.toList.toArray := reads_countedBytes few
  have valid : String.fromUTF8? ⟨s.toByteArray.data⟩ = some s := by
    rw [String.fromUTF8?, dif_pos s.isValidUTF8]
    rfl
  rw [Array.toArray_toList] at bytes
  have all : text.Reads (Image.counted s.toByteArray.data.toList ++ []) s := by
    refine bytes.bind ?_
    rw [valid]
    exact .pure s
  rwa [List.append_nil] at all

/-- A truth value reads back from its byte. -/
theorem reads_boolean (b : Bool) : boolean.Reads [if b then 1 else 0] b := by
  cases b with
  | false => exact (reads_byte 0).bind (.pure false)
  | true => exact (reads_byte 1).bind (.pure true)

/-- The number of a type is a single byte, and the content of the value is behind it. -/
theorem reads_tagged {tag : UInt8} {more : List UInt8} {v : Value}
    {content : Nat → ImageReader Value} (small : tag.toNat < 128)
    (h : (content tag.toNat).Reads more v) :
    (do content (← number Varint.word32)).Reads (tag :: more) v := by
  have number : (number Varint.word32).Reads [tag] tag.toNat := by
    have read : (number Varint.word32).Reads (Varint.encode tag.toNat) tag.toNat :=
      reads_number (by decide) (by decide) (Nat.lt_trans small (by decide))
    rwa [Varint.encode, encodeWithin_of_lt small, UInt8.ofNat_toNat] at read
  exact number.bind h

/-- Texts are the only values with a length. -/
theorem reads_value {v : Value} (few : ∀ s, v = .string s → s.utf8ByteSize < UInt64.size) :
    value.Reads (Image.valueBytes v) v := by
  cases v with
  | integer n =>
      refine reads_tagged (by decide) ?_
      have number := reads_length (n := Varint.fold n.toInt) (Varint.fold_lt n)
      have all := number.map fun folded => Value.integer (Int64.ofInt (Varint.unfold folded))
      rwa [Varint.unfold_fold, Int64.ofInt_toInt] at all
  | float x => exact reads_tagged (by decide) ((reads_pattern x).map Value.float)
  | string s => exact reads_tagged (by decide) ((reads_text (few s rfl)).map Value.string)
  | boolean b => exact reads_tagged (by decide) ((reads_boolean b).map Value.boolean)
  | null => exact reads_tagged (by decide) (.pure Value.null)

end ImageReader

/-! ### Images -/

/-- The bytes of an image under any mark and version. -/
def Image.written (mark : List UInt8) (version : Nat) (b : Bytecode) : List UInt8 :=
  mark ++ Varint.encode version ++ Image.counted b.code.toList ++
    Varint.encode b.constants.size ++ b.constants.toList.flatMap Image.valueBytes

/-- A bytecode is **storable** if all lengths in it are numbers of 64 bits, as those of anything
that is held in memory are. -/
structure Bytecode.Storable (b : Bytecode) : Prop where
  code : b.code.size < UInt64.size
  constants : b.constants.size < UInt64.size
  texts : ∀ s, Value.string s ∈ b.constants → s.utf8ByteSize < UInt64.size

/-- A whole image is read back, whatever its mark and its version are. -/
theorem ImageReader.reads_image {mark : List UInt8} (four : mark.length = 4) (version : UInt16)
    {b : Bytecode} (h : b.Storable) :
    image.Reads (Image.written mark version.toNat b) (mark.toArray, version.toNat, b) := by
  have values : (counted value).Reads
      (Varint.encode b.constants.toList.length ++ b.constants.toList.flatMap Image.valueBytes)
      b.constants.toList.toArray := by
    refine reads_counted (fun v known => reads_value fun s text => ?_) h.constants
    exact h.texts s (Array.mem_toList_iff.mp (text ▸ known))
  have code : (counted byte).Reads (Image.counted b.code.toList) b.code.toList.toArray :=
    reads_countedBytes h.code
  have number : (number Varint.word16).Reads (Varint.encode version.toNat) version.toNat :=
    reads_number (by decide) (by decide) version.toNat_lt
  have marked := reads_bytes mark
  rw [four] at marked
  rw [Array.toArray_toList, Array.length_toList] at values
  rw [Array.toArray_toList] at code
  have all : image.Reads _ (mark.toArray, version.toNat, b) :=
    marked.bind (number.bind (code.bind (values.bind (.pure _))))
  simpa only [Image.written, List.append_assoc, List.append_nil] using all

/-- **Images read back.** The image of a bytecode is read back as just that bytecode, floats with
the same bits, whatever stands behind it; every shorter beginning of it ends too early. The same
payload is refused for its mark under any other mark, and for its version under any other
version. -/
theorem Bytecode.ofImage_image {b : Bytecode} (h : b.Storable) :
    (∀ behind, Bytecode.ofImage (b.image ++ behind) = .ok b) ∧
    (∀ front, front <+: b.image → front ≠ b.image →
      Bytecode.ofImage front = .error (.encoding .endOfBytes)) ∧
    (∀ (mark : List UInt8) (version : UInt16) (behind : List UInt8), mark.length = 4 →
      mark ≠ Image.mark →
      Bytecode.ofImage (Image.written mark version.toNat b ++ behind) = .error .badMark) ∧
    (∀ (version : UInt16) (behind : List UInt8), version.toNat ≠ Image.version →
      Bytecode.ofImage (Image.written Image.mark version.toNat b ++ behind) =
        .error (.version version.toNat)) := by
  have own : ImageReader.image.Reads b.image (Image.mark.toArray, Image.version, b) :=
    ImageReader.reads_image (by decide) 1 h
  refine ⟨fun behind => ?_, fun front beginning shorter => ?_,
    fun mark version behind four other => ?_, fun version behind other => ?_⟩
  · rw [ofImage, own.whole]
    rfl
  · obtain ⟨missing, split⟩ := beginning
    have some : missing ≠ [] := by
      rintro rfl
      exact shorter (by rw [← split, List.append_nil])
    obtain ⟨left, failed⟩ := own.cut split.symm some
    rw [ofImage, failed]
  · rw [ofImage, (ImageReader.reads_image four version h).whole]
    simp only [ne_eq, other, not_false_eq_true, if_true]
  · rw [ofImage, (ImageReader.reads_image (by decide) version h).whole]
    simp only [ne_eq, not_true_eq_false, if_false, other, not_false_eq_true, if_true]

/-- An image with a constant of each type: the least integer, a negative zero, a text of two bytes,
a truth value and `null`. -/
theorem Bytecode.ofImage_image_constants :
    let b : Bytecode :=
      { code := #[0, 0, 0, 1],
        constants := #[.integer (-0x8000000000000000), .float ⟨0x8000000000000000⟩, .string "é",
          .boolean true, .null] }
    b.Storable ∧ Bytecode.ofImage (b.image ++ [7]) = .ok b ∧
      Bytecode.ofImage b.image.dropLast = .error (.encoding .endOfBytes) ∧
      Bytecode.ofImage (Image.written [0x4E, 0x4F, 0x50, 0x45] 1 b ++ [7]) = .error .badMark ∧
      Bytecode.ofImage (Image.written Image.mark 300 b ++ [7]) = .error (.version 300) := by
  intro b
  have storable : b.Storable := by
    refine ⟨by decide, by decide, fun s known => ?_⟩
    simp only [b, List.mem_toArray, List.mem_cons, Value.string.injEq, reduceCtorEq,
      List.not_mem_nil, or_false, false_or] at known
    subst known
    decide
  obtain ⟨whole, cut, marked, versioned⟩ := Bytecode.ofImage_image storable
  exact ⟨storable, whole [7], cut _ (List.dropLast_prefix _) (by decide),
    marked [0x4E, 0x4F, 0x50, 0x45] 1 [7] rfl (by decide), versioned 300 [7] (by decide)⟩

end StackScript
