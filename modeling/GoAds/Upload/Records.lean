import GoAds.Codec.Scalar
import GoAds.Wire.Ams
import Mathlib.Data.List.TakeWhile

/-!
# `Upload.Records` — the records of the uploaded tables

An entry of the symbol table or of the datatype table is a header of fixed size, then three texts: the
name, the type and the comment, each with its length in the header and a terminator of one byte behind
it.  Three functions of the source read such a record.  What they share is here: the read of the texts,
the cut at the first NUL, and the normalised name of a string type.
-/

namespace GoAds.Upload

open List

open Codec (Text lit)
open Wire (ReadErr)

abbrev Bytes := List UInt8

/-! ## Texts -/

/-- `cString`: TC2 2.11 counts the terminator in some lengths. -/
def cString (b : Bytes) : Text := b.takeWhile (· ≠ 0)

/-- `normalizeStringDataType`: `STRING(80)` is `STRING`. -/
def normalizeStringDataType (dt : Text) : Text :=
  if dt.take 7 = lit "WSTRING" then lit "WSTRING"
  else if dt.take 6 = lit "STRING" then lit "STRING"
  else dt

/-- `binary.Read` into a slice.  Reading nothing succeeds at the end of the buffer, too. -/
def readBytes (n : Nat) (data : Bytes) : Except ReadErr (Bytes × Bytes) :=
  if data.length < n then .error (if data = [] then .eof else .unexpectedEOF)
  else .ok (data.take n, data.drop n)

/-- The three texts as they stand in the record. -/
structure Texts where
  name : Bytes
  dataType : Bytes
  comment : Bytes

/-- The text that could not be read. -/
inductive TextField
  | name | type | comment

/-- The texts with the terminators between them.  `Next(1)` skips a byte if there is one. -/
def readTexts (nameLength typeLength commentLength : UInt16) (data : Bytes) :
    Except (TextField × ReadErr) (Texts × Bytes) :=
  match readBytes nameLength.toNat data with
  | .error e => .error (.name, e)
  | .ok (name, data) =>
    match readBytes typeLength.toNat (data.drop 1) with
    | .error e => .error (.type, e)
    | .ok (dt, data) =>
      match readBytes commentLength.toNat (data.drop 1) with
      | .error e => .error (.comment, e)
      | .ok (comment, data) => .ok (⟨name, dt, comment⟩, data)

/-! ## What is written is read -/

variable {data rest : Bytes} {text : Text} {α : Type}

theorem cString_of_plain (h : 0 ∉ text) : cString text = text := by
  apply takeWhile_eq_self_iff.2
  intro b hb
  apply decide_eq_true
  rintro rfl
  exact h hb

theorem readBytes_append (bytes rest : Bytes) : readBytes bytes.length (bytes ++ rest) = .ok (bytes, rest) := by
  have hlen : ¬ (bytes ++ rest).length < bytes.length := by
    rw [length_append]
    omega
  rw [readBytes, if_neg hlen, take_left, drop_left]

theorem readBytes_eq_ok {k bytes} :
    readBytes k data = .ok (bytes, rest) ↔ k ≤ data.length ∧ bytes = data.take k ∧ rest = data.drop k := by
  unfold readBytes
  split
  · next hlt =>
    simp only [reduceCtorEq, false_iff]
    omega
  next hle =>
  simp only [Except.ok.injEq, Prod.mk.injEq]
  constructor
  · rintro ⟨rfl, rfl⟩
    exact ⟨by omega, rfl, rfl⟩
  · rintro ⟨-, rfl, rfl⟩
    exact ⟨rfl, rfl⟩

/-- Three texts of a record. -/
def encodeTexts (name dataType comment : Text) : Bytes :=
  name ++ 0 :: (dataType ++ 0 :: (comment ++ [0]))

theorem length_encodeTexts (name dataType comment : Text) : (encodeTexts name dataType comment).length =
      name.length + dataType.length + comment.length + 3 := by
  simp [encodeTexts]
  omega

theorem toNat_length (h : text.length < 2 ^ 16) : (UInt16.ofNat text.length).toNat = text.length :=
  UInt16.toNat_ofNat_of_lt' h

theorem readTexts_encodeTexts {name dataType comment} (hname : name.length < 2 ^ 16)
    (htype : dataType.length < 2 ^ 16) (hcomment : comment.length < 2 ^ 16) (rest : Bytes) :
    readTexts (UInt16.ofNat name.length) (UInt16.ofNat dataType.length) (UInt16.ofNat comment.length)
        (encodeTexts name dataType comment ++ rest) = .ok (⟨name, dataType, comment⟩, 0 :: rest) := by
  have hsplit : encodeTexts name dataType comment ++ rest =
      name ++ (0 :: (dataType ++ (0 :: (comment ++ (0 :: rest))))) := by
    simp [encodeTexts]
  rw [hsplit]
  simp only [readTexts, toNat_length hname, toNat_length htype, toNat_length hcomment, readBytes_append,
    drop_succ_cons, drop_zero]

/-- Three texts stand in a buffer of so many bytes.  A terminator is skipped if there is one. -/
structure TextsFit (nameLength typeLength commentLength : UInt16) (room : Nat) : Prop where
  name : nameLength.toNat ≤ room
  type : typeLength.toNat ≤ room - nameLength.toNat - 1
  comment : commentLength.toNat ≤ room - nameLength.toNat - 1 - typeLength.toNat - 1

/-- The texts are read only if they fit, and then the buffer continues at the last terminator. -/
theorem fit_of_readTexts {n t c texts} (h : readTexts n t c data = .ok (texts, rest)) :
    TextsFit n t c data.length ∧ rest = data.drop (n.toNat + 1 + t.toNat + 1 + c.toNat) := by
  unfold readTexts at h
  split at h
  · cases h
  next name rest₁ hname =>
  split at h
  · cases h
  next dt rest₂ htype =>
  split at h
  · cases h
  next comment rest₃ hcomment =>
  cases h
  obtain ⟨hn, -, rfl⟩ := readBytes_eq_ok.1 hname
  obtain ⟨ht, -, rfl⟩ := readBytes_eq_ok.1 htype
  obtain ⟨hc, -, rfl⟩ := readBytes_eq_ok.1 hcomment
  simp only [length_drop] at ht hc
  exact ⟨⟨hn, ht, hc⟩, by simp only [drop_drop]⟩

theorem readTexts_rest {n t c texts}
    (h : readTexts n t c data = .ok (texts, rest)) : rest.length ≤ data.length := by
  rw [(fit_of_readTexts h).2, length_drop]
  exact Nat.sub_le ..

theorem binaryRead_put (layout : FixedSize α) (x : α) (rest : Bytes) :
    Wire.binaryRead layout (layout.put x ++ rest) = .ok (x, rest) := by
  rw [Wire.binaryRead, layout.read_put_append]

variable {layout : FixedSize α} {x : α}

theorem binaryRead_eq_ok : Wire.binaryRead layout data = .ok (x, rest) ↔ data = layout.put x ++ rest := by
  constructor
  · intro h
    unfold Wire.binaryRead at h
    cases hread : layout.read data with
    | none =>
      rw [hread] at h
      cases h
    | some =>
      rw [hread] at h
      cases h
      exact FixedSize.read_eq_some.1 hread
  · rintro rfl
    exact binaryRead_put layout x rest

theorem binaryRead_rest (h : Wire.binaryRead layout data = .ok (x, rest)) :
    data.length = layout.size + rest.length := by
  rw [binaryRead_eq_ok.1 h, length_append, layout.length_put]

end GoAds.Upload
