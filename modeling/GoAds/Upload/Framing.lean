import GoAds.Lib.RecordLoop
import GoAds.Upload.SymbolTable
import GoAds.Upload.TypeTable

/-!
# `Upload.Framing` — where the records of a table end

Both tables are records one behind the other, and the header of each record declares its length.  The two
loops reconcile this length with the bytes that they consumed in different ways.

* The symbol table's loop skips forward to the declared end.  It refuses a length that is smaller than
  what was consumed; but `Next` takes what there is, so a record may declare an end behind the end of the
  table, and a last record may lack its terminator.
* The datatype decoder refuses a declared end behind the end of its buffer.  A length that is smaller than
  what was consumed means that there are no members, and the next record starts where the texts end.

What the loops accept is said here as a grammar over the bytes (`SymbolRecord`, `TypeRecord`); one
lemma for one record and one for the whole loop say that it is what they accept.  The tables that are
accepted but not exactly framed are then described by the same grammar.
-/

namespace GoAds.Upload

open Codec (Text lit)
open RecordLoop List
open Wire (ReadErr)

/-! ## The texts of a record -/

/-- The bytes of three texts with their terminators. -/
def textsLength (nameLength typeLength commentLength : UInt16) : Nat :=
  nameLength.toNat + typeLength.toNat + commentLength.toNat + 3

section Texts

variable {n t c : UInt16} {k : Nat} {data body rest bytes : Bytes} {texts : Texts} {α : Type}
  {layout : FixedSize α} {x : α}

theorem readTexts_of_fit (h : TextsFit n t c data.length) :
    ∃ texts rest, readTexts n t c data = .ok (texts, rest) := by
  have hname := readBytes_eq_ok.2 ⟨h.name, rfl, rfl⟩
  have htype : readBytes t.toNat ((data.drop n.toNat).drop 1) = .ok _ :=
    readBytes_eq_ok.2 ⟨by simpa only [length_drop] using h.type, rfl, rfl⟩
  have hcomment : readBytes c.toNat ((((data.drop n.toNat).drop 1).drop t.toNat).drop 1) = .ok _ :=
    readBytes_eq_ok.2 ⟨by simpa only [length_drop] using h.comment, rfl, rfl⟩
  exact ⟨_, _, by simp only [readTexts, hname, htype, hcomment]; rfl⟩

/-- What a header and its texts are read from, and where the buffer then continues. -/
theorem front_of_read (hheader : Wire.binaryRead layout data = .ok (x, body))
    (htexts : readTexts n t c body = .ok (texts, rest)) :
    layout.put x <+: data ∧ TextsFit n t c (data.length - layout.size) ∧
      rest.drop 1 = data.drop (layout.size + textsLength n t c) := by
  obtain rfl := binaryRead_eq_ok.1 hheader
  obtain ⟨hfit, hdrop⟩ := fit_of_readTexts htexts
  have hsize := layout.length_put x
  refine ⟨prefix_append _ _, ?_, ?_⟩
  · rwa [length_append, hsize, Nat.add_sub_cancel_left]
  · rw [← hsize, drop_length_add_append, hdrop, drop_drop, textsLength]
    congr 1
    omega

theorem read_of_front (hfront : layout.put x <+: data) (hfit : TextsFit n t c (data.length - layout.size)) :
    ∃ body texts rest, Wire.binaryRead layout data = .ok (x, body) ∧
      readTexts n t c body = .ok (texts, rest) := by
  obtain ⟨body, rfl⟩ := hfront
  rw [length_append, layout.length_put, Nat.add_sub_cancel_left] at hfit
  obtain ⟨texts, rest, htexts⟩ := readTexts_of_fit hfit
  exact ⟨body, texts, rest, binaryRead_put .., htexts⟩

end Texts

/-! ## Symbol records -/

/-- The bytes that the header and the texts of a symbol need. -/
def SymbolEntry.needed (h : SymbolEntry) : Nat :=
  30 + textsLength h.nameLength h.typeLength h.commentLength

/-- A record that the loop takes at the front of a buffer, by its header. -/
structure SymbolRecord (data : Bytes) (h : SymbolEntry) : Prop where
  header : SymbolEntry.layout.put h <+: data
  texts : TextsFit h.nameLength h.typeLength h.commentLength (data.length - 30)
  declared : min h.needed data.length ≤ h.entryLength.toNat

/-- Some record of the table declares an end behind the end of the table, or stands at the end of the
    table without its last terminator. -/
inductive SymbolsCut : Bytes → Prop
  | here {data : Bytes} {h : SymbolEntry} (record : SymbolRecord data h)
      (cut : data.length < max h.needed h.entryLength.toNat) : SymbolsCut data
  | later {data : Bytes} {h : SymbolEntry} (record : SymbolRecord data h)
      (rest : SymbolsCut (data.drop h.entryLength.toNat)) : SymbolsCut data

section Symbols

variable {data rest : Bytes} {item : SymbolUploadSymbol} {h : SymbolEntry}

theorem drop_declared {needed declared} (hle : min needed data.length ≤ declared) :
    (data.drop needed).drop (declared - (data.length - (data.drop needed).length)) = data.drop declared := by
  rw [length_drop, drop_drop]
  rcases Nat.le_total needed data.length with hfits | hshort
  · rw [Nat.min_eq_left hfits] at hle
    congr 1
    omega
  · rw [Nat.min_eq_right hshort] at hle
    rw [drop_eq_nil_of_le hle, drop_eq_nil_of_le (by omega)]

/-- **One round of the loop takes what is a record by the grammar**, and continues at its declared end. -/
theorem nextSymbol_sound (hok : nextSymbol data = .ok (item, rest)) :
    SymbolRecord data item.symbolEntry ∧ rest = data.drop item.symbolEntry.entryLength.toNat := by
  unfold nextSymbol at hok
  split at hok
  · cases hok
  next result body hheader =>
  split at hok
  · cases hok
  next texts buff htexts =>
  obtain ⟨hfront, hfit, hbody⟩ := front_of_read hheader htexts
  change buff.drop 1 = data.drop result.needed at hbody
  dsimp only at hok
  rw [hbody] at hok
  split at hok
  · cases hok
  next hlt =>
  cases hok
  rw [length_drop] at hlt
  have hdeclared : min result.needed data.length ≤ result.entryLength.toNat := by omega
  exact ⟨⟨hfront, hfit, hdeclared⟩, drop_declared hdeclared⟩

theorem nextSymbol_complete (hrec : SymbolRecord data h) :
    ∃ item, nextSymbol data = .ok (item, data.drop h.entryLength.toNat) ∧ item.symbolEntry = h := by
  obtain ⟨body, texts, buff, hheader, htexts⟩ := read_of_front hrec.header hrec.texts
  have hbody : buff.drop 1 = data.drop h.needed := (front_of_read hheader htexts).2.2
  have hconsumed : ¬ h.entryLength.toNat < data.length - (data.drop h.needed).length := by
    have hdeclared := hrec.declared
    rw [length_drop]
    omega
  refine ⟨{ symbolEntry := h
            name := cString texts.name
            dataType := normalizeStringDataType (cString texts.dataType)
            comment := cString texts.comment }, ?_, rfl⟩
  unfold nextSymbol
  simp only [hheader, htexts, hbody, hconsumed, if_false, drop_declared hrec.declared]

end Symbols

/-! ## The symbol table -/

section SymbolTable

variable (symbolKey : Text → Text) (datatypes : DataTypes)

/-- What the loop does with an item. -/
def fileSymbol (item : SymbolUploadSymbol) (symbols : SymbolMap) : SymbolMap :=
  addChildren symbolKey (addSymbol item datatypes)
    (Keyed.store Prod.fst (symbolKey item.name, addSymbol item datatypes) symbols)

/-- The symbol table, if it is accepted, is the concatenation of the records that were decoded, and each
    record is as long as its header declares and no shorter than it needs. -/
def SymbolsFramed (data : Bytes) : Prop :=
  ∀ symbols, parseUploadSymbolInfoSymbols symbolKey data datatypes = .ok symbols →
    ∃ records : List (Bytes × SymbolUploadSymbol),
      Reads nextSymbol data records ∧ data = (records.map Prod.fst).flatten ∧
        symbols = Reads.collect (fileSymbol symbolKey datatypes) records [] ∧
        ∀ r ∈ records, r.2.symbolEntry.entryLength.toNat = r.1.length ∧ r.2.symbolEntry.needed ≤ r.1.length

variable {symbolKey datatypes} {data rest : Bytes} {item : SymbolUploadSymbol} {h : SymbolEntry}

theorem SymbolRecord.thirty_le (hrec : SymbolRecord data h) : 30 ≤ data.length := by
  have hsize : (SymbolEntry.layout.put h).length = 30 := FixedSize.length_put ..
  rw [← hsize]
  exact hrec.header.length_le

theorem SymbolRecord.declared_pos (hrec : SymbolRecord data h) : 0 < h.entryLength.toNat := by
  have hlen := hrec.thirty_le
  have hdeclared := hrec.declared
  have hneeded : 30 ≤ h.needed := Nat.le_add_right ..
  omega

theorem nextSymbol_front (hok : nextSymbol data = .ok (item, rest)) :
    data = data.take item.symbolEntry.entryLength.toNat ++ rest ∧
      data.take item.symbolEntry.entryLength.toNat ≠ [] := by
  obtain ⟨hrec, rfl⟩ := nextSymbol_sound hok
  refine ⟨(take_append_drop _ _).symm, ?_⟩
  intro hnil
  have hlen := congrArg List.length hnil
  rw [length_take, length_nil] at hlen
  have hdeclared := hrec.declared_pos
  have hthirty := hrec.thirty_le
  omega

theorem isLoop_parseSymbols :
    Reads.IsLoop nextSymbol (fileSymbol symbolKey datatypes) (parseSymbols symbolKey datatypes) where
  nil acc := by rw [parseSymbols, if_pos rfl]
  error data acc e hne herr := by
    refine ⟨e, ?_⟩
    rw [parseSymbols, if_neg hne]
    split
    · next e' he =>
      rw [herr] at he
      rw [Except.error.inj he]
    next he =>
    rw [herr] at he
    cases he
  ok data acc item rest hne hok := parseSymbols_of_ok symbolKey datatypes acc hne hok
  front data item rest hok :=
    ⟨_, (nextSymbol_front hok).2, (nextSymbol_front hok).1⟩

/-- A record at the end of its own bytes is exact or cut. -/
def SymbolRecord.Exact (bytes : Bytes) (h : SymbolEntry) : Prop :=
  h.entryLength.toNat = bytes.length ∧ h.needed ≤ bytes.length

theorem SymbolRecord.exact_or_cut (hrec : SymbolRecord data h) :
    SymbolRecord.Exact (data.take h.entryLength.toNat) h ∨ data.length < max h.needed h.entryLength.toNat := by
  have hdeclared := hrec.declared
  rw [Exact, length_take]
  omega

theorem SymbolRecord.not_exact_of_cut (hcut : data.length < max h.needed h.entryLength.toNat) :
    ¬ SymbolRecord.Exact (data.take h.entryLength.toNat) h := by
  rw [Exact, length_take]
  omega

/-- A table that is read without a cut has exact records only. -/
theorem exact_of_reads {records} (hreads : Reads nextSymbol data records)
    (hcut : ¬ SymbolsCut data) : ∀ r ∈ records, SymbolRecord.Exact r.1 r.2.symbolEntry := by
  induction hreads with
  | nil => simp
  | @cons bytes rest item records hnext hne more ih =>
    obtain ⟨hrec, hrest⟩ := nextSymbol_sound hnext
    have hbytes : bytes = (bytes ++ rest).take item.symbolEntry.entryLength.toNat :=
      append_cancel_right (nextSymbol_front hnext).1
    have hmore : ¬ SymbolsCut rest := by
      intro hr
      rw [hrest] at hr
      exact hcut (.later hrec hr)
    intro r hr
    rcases mem_cons.1 hr with rfl | hr
    · rcases hrec.exact_or_cut with hexact | hshort
      · rwa [← hbytes] at hexact
      · exact absurd (.here hrec hshort) hcut
    · exact ih hmore r hr

/-- A table with a cut is read all the same, and then some record is not exact. -/
theorem reads_of_cut (hcut : SymbolsCut data) : ∃ records, Reads nextSymbol data records ∧
      ∃ r ∈ records, ¬ SymbolRecord.Exact r.1 r.2.symbolEntry := by
  -- the record that is cut is the last one; those before it are read one by one
  have hcons : ∀ {data : Bytes} {h : SymbolEntry}, SymbolRecord data h →
      ∃ item, item.symbolEntry = h ∧ ∀ records, Reads nextSymbol (data.drop h.entryLength.toNat) records →
        Reads nextSymbol data ((data.take h.entryLength.toNat, item) :: records) := by
    intro data h hrec
    obtain ⟨item, hok, rfl⟩ := nextSymbol_complete hrec
    refine ⟨item, rfl, fun records hreads => ?_⟩
    obtain ⟨hfront, hne⟩ := nextSymbol_front hok
    exact Reads.step hok hfront hne hreads
  induction hcut with
  | @here data h hrec hshort =>
    obtain ⟨item, hitem, hread⟩ := hcons hrec
    have hend : data.drop h.entryLength.toNat = [] := by
      have hdeclared := hrec.declared
      apply drop_eq_nil_of_le
      omega
    refine ⟨_, hread [] (by rw [hend]; exact .nil), _, mem_cons_self .., ?_⟩
    rw [hitem]
    exact SymbolRecord.not_exact_of_cut hshort
  | @later data h hrec hrest ih =>
    obtain ⟨item, -, hread⟩ := hcons hrec
    obtain ⟨records, hreads, r, hr, hbad⟩ := ih
    exact ⟨_, hread records hreads, r, mem_cons_of_mem _ hr, hbad⟩

theorem symbolsFramed_iff : SymbolsFramed symbolKey datatypes data ↔ ¬ SymbolsCut data := by
  constructor
  · intro hframed hcut
    obtain ⟨records, hreads, r, hr, hbad⟩ := reads_of_cut hcut
    have hloop : Reads.IsLoop nextSymbol _ (parseSymbols symbolKey datatypes) := isLoop_parseSymbols
    obtain ⟨records', hreads', -, -, hexact⟩ := hframed _ (Reads.loop_ok hloop hreads)
    rw [Reads.unique hreads hreads'] at hexact
    exact hbad (hexact r hr)
  intro hcut symbols hok
  obtain ⟨records, hreads, hsymbols⟩ := Reads.of_loop isLoop_parseSymbols hok
  exact ⟨records, hreads, hreads.eq_flatten, hsymbols, exact_of_reads hreads hcut⟩

end SymbolTable

/-! ## Datatype records -/

/-- The bytes that the header and the texts of a datatype need. -/
def DatatypeEntry.needed (h : DatatypeEntry) : Nat :=
  42 + textsLength h.nameLength h.typeLength h.commentLength

/-- Where the decoder continues: behind the declared end, or behind the texts if that is further. -/
def DatatypeEntry.taken (h : DatatypeEntry) : Nat := max h.entryLength.toNat h.needed

/-- The header and the texts of a datatype stand at the front of a buffer. -/
structure TypeHeader (data : Bytes) (h : DatatypeEntry) : Prop where
  size : 48 ≤ data.length
  header : DatatypeEntry.layout.put h <+: data
  texts : TextsFit h.nameLength h.typeLength h.commentLength (data.length - 42)

mutual

/-- A record that the decoder takes at the front of a buffer, by its header.  The flag says that this
    record, or one for a member inside it, declares less than it needs. -/
inductive TypeRecord : Bytes → DatatypeEntry → Bool → Prop
  | leaf {data : Bytes} {h : DatatypeEntry} (header : TypeHeader data h)
      (declared : h.entryLength.toNat ≤ min h.needed data.length) :
      TypeRecord data h (decide (h.entryLength.toNat < h.needed))
  | array {data : Bytes} {h : DatatypeEntry} (header : TypeHeader data h)
      (declared : h.needed < h.entryLength.toNat) (room : h.entryLength.toNat ≤ data.length)
      (dim : h.arrayDim ≠ 0) (levels : 8 * h.arrayDim.toNat ≤ h.entryLength.toNat - h.needed) :
      TypeRecord data h false
  | struct {data : Bytes} {h : DatatypeEntry} {short : Bool} (header : TypeHeader data h)
      (declared : h.needed < h.entryLength.toNat) (room : h.entryLength.toNat ≤ data.length)
      (dim : h.arrayDim = 0)
      (members : TypeRecords h.subItems.toNat ((data.take h.entryLength.toNat).drop h.needed) short) :
      TypeRecord data h short

/-- So many records one behind the other, at the front of a buffer. -/
inductive TypeRecords : Nat → Bytes → Bool → Prop
  | done (data : Bytes) : TypeRecords 0 data false
  | next {left : Nat} {data : Bytes} {h : DatatypeEntry} {short short' : Bool}
      (record : TypeRecord data h short)
      (more : TypeRecords left (data.drop h.taken) short') : TypeRecords (left + 1) data (short || short')

end

/-- A datatype table that is accepted.  The flag says that some record, at whatever level, declares less
    than it needs. -/
inductive TypesAccepted : Bytes → Bool → Prop
  | nil : TypesAccepted [] false
  | cons {data : Bytes} {h : DatatypeEntry} {short short' : Bool} (record : TypeRecord data h short)
      (more : TypesAccepted (data.drop h.taken) short') : TypesAccepted data (short || short')

section Types

variable {data rest buff : Bytes} {h : DatatypeEntry} {parent name : Text}

variable {decode : Decoder} {children : List SymbolUploadDataType} {header : TypeInfo}

theorem readHeader_sound (hok : readHeader parent data = .ok (header, rest)) :
    TypeHeader data header.datatypeEntry ∧ rest = data.drop header.datatypeEntry.needed := by
  unfold readHeader at hok
  split at hok
  · cases hok
  next hsmall =>
  split at hok
  · cases hok
  next result body hheader =>
  split at hok
  · cases hok
  next texts buff htexts =>
  cases hok
  obtain ⟨hfront, hfit, hbody⟩ := front_of_read hheader htexts
  exact ⟨⟨Nat.not_lt.1 hsmall, hfront, hfit⟩, hbody⟩

theorem readHeader_complete (hhead : TypeHeader data h) (parent : Text) :
    ∃ header, readHeader parent data = .ok (header, data.drop h.needed) ∧ header.datatypeEntry = h := by
  obtain ⟨body, texts, buff, hheader, htexts⟩ := read_of_front hhead.header hhead.texts
  have hbody : buff.drop 1 = data.drop h.needed := (front_of_read hheader htexts).2.2
  have hsmall : ¬ data.length < 48 := Nat.not_lt.2 hhead.size
  refine ⟨{ datatypeEntry := h
            name := cString texts.name
            dataType := normalizeStringDataType (cString texts.dataType)
            comment := cString texts.comment }, ?_, rfl⟩
  simp only [readHeader, hsmall, if_false, hheader, htexts, hbody]

/-- The ranges of an array are read if and only if their bytes are there. -/
theorem readLevels_isOk_iff {dims} :
    (∃ levels, readLevels name dims buff = .ok levels) ↔ 8 * dims ≤ buff.length := by
  induction dims generalizing buff with
  | zero => simp [readLevels]
  | succ dims ih =>
    constructor
    · rintro ⟨levels, hok⟩
      rw [readLevels] at hok
      split at hok
      · cases hok
      next arrayInfo rest hread =>
      have hlen : buff.length = 8 + rest.length := binaryRead_rest hread
      cases hmore : readLevels name dims rest with
      | error =>
        rw [hmore] at hok
        cases hok
      | ok levels' =>
        have hle := ih.1 ⟨levels', hmore⟩
        omega
    · intro hle
      -- eight bytes are there, so there is a range in them
      have hsize : DatatypeArrayInfo.layout.size = 8 := rfl
      have hfront : buff = DatatypeArrayInfo.layout.put (DatatypeArrayInfo.layout.get buff) ++ buff.drop 8 := by
        rw [DatatypeArrayInfo.layout.put_get buff (by omega), hsize, take_append_drop]
      obtain ⟨levels, hmore⟩ := ih.2 (show 8 * dims ≤ (buff.drop 8).length by rw [length_drop]; omega)
      refine ⟨DatatypeArrayInfo.layout.get buff :: levels, ?_⟩
      rw [readLevels, binaryRead_eq_ok.2 hfront]
      simp only [hmore]
      rfl

/-- A decoder takes what are records by the grammar, and continues behind them. -/
def Takes (decode : Decoder) : Prop :=
  ∀ parent data t rest, decode parent data = .ok (t, rest) →
    (∃ short, TypeRecord data t.info.datatypeEntry short) ∧ rest = data.drop t.info.datatypeEntry.taken

theorem readSubItems_sound (hdecode : Takes decode) {j left out}
    (hok : readSubItems decode name j left buff children = .ok out) :
    ∃ short, TypeRecords left buff short := by
  induction left generalizing j buff children with
  | zero => exact ⟨false, .done buff⟩
  | succ left ih =>
    rw [readSubItems] at hok
    split at hok
    · cases hok
    next child rest hchild =>
    obtain ⟨⟨short, hrec⟩, rfl⟩ := hdecode _ _ _ _ hchild
    obtain ⟨short', hmore⟩ := ih hok
    exact ⟨short || short', .next hrec hmore⟩

theorem consumed_eq (needed : Nat) : data.length - (data.drop needed).length = min needed data.length := by
  rw [length_drop]
  omega

theorem readChildren_sound (hdecode : Takes decode) (hhead : TypeHeader data header.datatypeEntry)
    (hdeclared : header.datatypeEntry.needed < header.datatypeEntry.entryLength.toNat)
    (hfits : header.datatypeEntry.entryLength.toNat ≤ data.length) (hok : readChildren decode header
      ((data.take header.datatypeEntry.entryLength.toNat).drop header.datatypeEntry.needed) = .ok children) :
    ∃ short, TypeRecord data header.datatypeEntry short := by
  unfold readChildren at hok
  split at hok
  · next hdim =>
    cases hlevels : readLevels header.name header.datatypeEntry.arrayDim.toNat
        ((data.take header.datatypeEntry.entryLength.toNat).drop header.datatypeEntry.needed) with
    | error e =>
      rw [hlevels] at hok
      cases hok
    | ok levels =>
      have hle := readLevels_isOk_iff.1 ⟨levels, hlevels⟩
      rw [length_drop, length_take_of_le hfits] at hle
      have hne : header.datatypeEntry.arrayDim ≠ 0 := by
        intro hzero
        rw [hzero] at hdim
        exact absurd hdim (by decide)
      exact ⟨false, .array hhead hdeclared hfits hne hle⟩
  · next hdim =>
    obtain ⟨short, hmembers⟩ := readSubItems_sound hdecode hok
    have hzero : header.datatypeEntry.arrayDim = 0 := UInt16.le_zero_iff.1 (UInt16.not_lt.1 hdim)
    exact ⟨short, .struct hhead hdeclared hfits hzero hmembers⟩

/-- One level of the decoder takes records, if the decoder for the members does. -/
theorem decodeWith_sound (hdecode : Takes decode) : Takes (decodeWith decode) := by
  intro parent data t rest hok
  unfold decodeWith at hok
  split at hok
  · cases hok
  next header buff hheader =>
  obtain ⟨hhead, rfl⟩ := readHeader_sound hheader
  simp only [consumed_eq] at hok
  split at hok
  · next hsmall =>
    -- no members: the texts end the record
    cases hok
    have htaken : header.datatypeEntry.taken = header.datatypeEntry.needed := by
      rw [DatatypeEntry.taken]
      omega
    exact ⟨⟨_, .leaf hhead hsmall⟩, by rw [SymbolUploadDataType.info, htaken]⟩
  next hlarge =>
  split at hok
  · cases hok
  next hroom =>
  split at hok
  · cases hok
  next children hchildren =>
  cases hok
  rw [length_drop] at hroom
  have hneeded : min header.datatypeEntry.needed data.length = header.datatypeEntry.needed := by omega
  have hdeclared : header.datatypeEntry.needed < header.datatypeEntry.entryLength.toNat := by omega
  have hfits : header.datatypeEntry.entryLength.toNat ≤ data.length := by omega
  have htaken : header.datatypeEntry.taken = header.datatypeEntry.entryLength.toNat := by
    rw [DatatypeEntry.taken]
    omega
  rw [hneeded, ← drop_take] at hchildren
  refine ⟨readChildren_sound hdecode hhead hdeclared hfits hchildren, ?_⟩
  rw [SymbolUploadDataType.info, htaken, hneeded, drop_drop]
  congr 1
  omega

/-- **The decoder takes records only.** -/
theorem decodeDepth_sound (depth : Nat) : Takes (decodeDepth depth) := by
  induction depth with
  | zero =>
    intro parent data t rest hok
    cases hok
  | succ depth ih => exact decodeWith_sound ih

theorem decodeWith_of_children
    (hheader : readHeader parent data = .ok (header, data.drop header.datatypeEntry.needed))
    (hdeclared : header.datatypeEntry.needed < header.datatypeEntry.entryLength.toNat)
    (hfits : header.datatypeEntry.entryLength.toNat ≤ data.length) (hchildren : readChildren decode header
      ((data.take header.datatypeEntry.entryLength.toNat).drop header.datatypeEntry.needed) = .ok children) :
    decodeWith decode parent data = .ok (.mk header children, data.drop header.datatypeEntry.taken) := by
  have hneeded : min header.datatypeEntry.needed data.length = header.datatypeEntry.needed := by omega
  have hlarge : ¬ header.datatypeEntry.entryLength.toNat ≤ header.datatypeEntry.needed := by omega
  have hroom : ¬ header.datatypeEntry.entryLength.toNat - header.datatypeEntry.needed >
      (data.drop header.datatypeEntry.needed).length := by
    rw [length_drop]
    omega
  have htaken : header.datatypeEntry.needed +
      (header.datatypeEntry.entryLength.toNat - header.datatypeEntry.needed) = header.datatypeEntry.taken := by
    rw [DatatypeEntry.taken]
    omega
  rw [drop_take] at hchildren
  simp only [decodeWith, hheader, consumed_eq, hneeded, hlarge, hroom, if_false, hchildren, drop_drop, htaken]

/-- The decoder takes the record with this header. -/
def Decoded (data : Bytes) (h : DatatypeEntry) : Prop :=
  ∀ parent, ∃ t, decodeSymbolUploadDataType parent data = .ok (t, data.drop h.taken) ∧ t.info.datatypeEntry = h

/-- The loop over the members takes so many records. -/
def DecodedMembers (left : Nat) (data : Bytes) : Prop :=
  ∀ name j children, ∃ out, readSubItems decodeSymbolUploadDataType name j left data children = .ok out

theorem decoded_leaf (hhead : TypeHeader data h) (hdeclared : h.entryLength.toNat ≤ min h.needed data.length) :
    Decoded data h := by
  intro parent
  obtain ⟨header, hheader, rfl⟩ := readHeader_complete hhead parent
  have htaken : header.datatypeEntry.taken = header.datatypeEntry.needed := by
    rw [DatatypeEntry.taken]
    omega
  refine ⟨.mk header [], ?_, rfl⟩
  rw [decodeSymbolUploadDataType_eq]
  simp only [decodeWith, hheader, consumed_eq, if_pos hdeclared, htaken]

section

variable (hhead : TypeHeader data h) (hdeclared : h.needed < h.entryLength.toNat)
  (hfits : h.entryLength.toNat ≤ data.length)

include hhead hdeclared hfits

/-- Behind header and texts the members or levels are read. -/
theorem decoded_of_children (hchildren : ∀ header : TypeInfo, header.datatypeEntry = h → ∃ children,
      readChildren decodeSymbolUploadDataType header ((data.take h.entryLength.toNat).drop h.needed) =
        .ok children) :
    Decoded data h := by
  intro parent
  obtain ⟨header, hheader, rfl⟩ := readHeader_complete hhead parent
  obtain ⟨children, hok⟩ := hchildren header rfl
  have hok := decodeWith_of_children hheader hdeclared hfits hok
  rw [← decodeSymbolUploadDataType_eq] at hok
  exact ⟨_, hok, rfl⟩

theorem decoded_array (hdim : h.arrayDim ≠ 0)
    (hlevels : 8 * h.arrayDim.toNat ≤ h.entryLength.toNat - h.needed) : Decoded data h := by
  refine decoded_of_children hhead hdeclared hfits fun header heq => ?_
  subst heq
  obtain ⟨levels, hok⟩ : ∃ levels, readLevels header.name header.datatypeEntry.arrayDim.toNat
      ((data.take header.datatypeEntry.entryLength.toNat).drop header.datatypeEntry.needed) = .ok levels := by
    apply readLevels_isOk_iff.2
    rw [length_drop, length_take_of_le hfits]
    exact hlevels
  have hpos : header.datatypeEntry.arrayDim > 0 := UInt16.pos_iff_ne_zero.2 hdim
  rw [readChildren, if_pos hpos, hok]
  exact ⟨_, rfl⟩

theorem decoded_struct (hdim : h.arrayDim = 0)
    (hmembers : DecodedMembers h.subItems.toNat ((data.take h.entryLength.toNat).drop h.needed)) :
    Decoded data h := by
  refine decoded_of_children hhead hdeclared hfits fun header heq => ?_
  subst heq
  have hzero : ¬ header.datatypeEntry.arrayDim > 0 := by
    rw [hdim]
    decide
  rw [readChildren, if_neg hzero]
  exact hmembers header.name 0 []

end

theorem decodedMembers_next {left} (hrec : Decoded data h)
    (hmore : DecodedMembers left (data.drop h.taken)) : DecodedMembers (left + 1) data := by
  intro name j children
  obtain ⟨t, ht, -⟩ := hrec name
  obtain ⟨out, hout⟩ := hmore name (j + 1) (Keyed.store SymbolUploadDataType.name t children)
  refine ⟨out, ?_⟩
  rw [readSubItems, ht]
  exact hout

mutual

/-- **The decoder takes every record**: the converse of `decodeDepth_sound`. -/
theorem TypeRecord.decoded {data h short} :
    TypeRecord data h short → Decoded data h
  | .leaf hhead hdeclared => decoded_leaf hhead hdeclared
  | .array hhead hdeclared hfits hdim hlevels => decoded_array hhead hdeclared hfits hdim hlevels
  | .struct hhead hdeclared hfits hdim hmembers => decoded_struct hhead hdeclared hfits hdim hmembers.decoded

theorem TypeRecords.decoded {left data short} :
    TypeRecords left data short → DecodedMembers left data
  | .done _ => fun _ _ children => ⟨children, rfl⟩
  | .next hrec hmore => decodedMembers_next hrec.decoded hmore.decoded

end

end Types

/-! ## The datatype table -/

/-- The records for the members of a struct, or of a member of it, declare what they need. -/
def MembersDeclared (bytes : Bytes) (h : DatatypeEntry) : Prop :=
  h.arrayDim = 0 → ¬ TypeRecords h.subItems.toNat (bytes.drop h.needed) true

/-- A record of the table is as long as its header declares, no shorter than it needs, and so are the
    records inside it. -/
structure TypeExact (bytes : Bytes) (h : DatatypeEntry) : Prop where
  length : h.entryLength.toNat = bytes.length
  needed : h.needed ≤ bytes.length
  members : MembersDeclared bytes h

/-- The datatype table, if it is accepted, is the concatenation of the records that were decoded, and each
    is exact. -/
def TypesFramed (data : Bytes) : Prop :=
  ∀ types, parseUploadSymbolInfoDataTypes data = .ok types →
    ∃ records : List (Bytes × SymbolUploadDataType),
      Reads (decodeSymbolUploadDataType []) data records ∧ data = (records.map Prod.fst).flatten ∧
        types = Reads.collect (Keyed.store SymbolUploadDataType.name) records [] ∧
        ∀ r ∈ records, TypeExact r.1 r.2.info.datatypeEntry

section TypeTable

variable {data rest : Bytes} {h : DatatypeEntry} {short : Bool} {t : SymbolUploadDataType}
  {records : List (Bytes × SymbolUploadDataType)}

theorem TypeRecord.head (hrec : TypeRecord data h short) : TypeHeader data h := by
  cases hrec with
  | leaf hhead | array hhead | struct hhead => exact hhead

theorem typeRecords_nil {left} (hrecs : TypeRecords left [] short) : short = false := by
  cases hrecs with
  | done => rfl
  | next hrec => exact absurd hrec.head.size (by decide)

theorem TypeRecord.not_exact (hrec : TypeRecord data h true) : ¬ TypeExact (data.take h.taken) h := by
  rintro ⟨hlength, hneeded, hmembers⟩
  rw [length_take] at hlength hneeded
  generalize hs : true = short at hrec
  cases hrec with
  | leaf hhead hdeclared =>
    have hlt := of_decide_eq_true hs.symm
    omega
  | array => cases hs
  | struct hhead hdeclared hroom hdim hrecs =>
    subst hs
    have htaken : h.taken = h.entryLength.toNat := Nat.max_eq_left (Nat.le_of_lt hdeclared)
    rw [← htaken] at hrecs
    exact hmembers hdim hrecs

/-- A record that is accepted is exact, or it or one inside declares less than it needs. -/
theorem TypeRecord.exact_or_short (hrec : TypeRecord data h short) :
    TypeExact (data.take h.taken) h ∨ TypeRecord data h true := by
  cases hrec with
  | leaf hhead hdeclared =>
    rcases Nat.lt_or_ge h.entryLength.toNat h.needed with hlt | hge
    · have hrec := TypeRecord.leaf hhead hdeclared
      rw [decide_eq_true hlt] at hrec
      exact .inr hrec
    -- the texts end the record, so there is nothing in which a member could stand
    have hlen : (data.take h.taken).length = h.needed := by
      rw [length_take, DatatypeEntry.taken]
      omega
    refine .inl ⟨by omega, by omega, ?_⟩
    intro hdim hrecs
    rw [drop_eq_nil_of_le (by omega)] at hrecs
    cases typeRecords_nil hrecs
  | array hhead hdeclared hroom hdim hlevels =>
    have hlen : (data.take h.taken).length = h.entryLength.toNat := by
      rw [length_take, DatatypeEntry.taken]
      omega
    exact .inl ⟨by omega, by omega, fun hzero => absurd hzero hdim⟩
  | struct hhead hdeclared hroom hdim hrecs =>
    have htaken : h.taken = h.entryLength.toNat := Nat.max_eq_left (Nat.le_of_lt hdeclared)
    have hlen : (data.take h.taken).length = h.entryLength.toNat := by
      rw [length_take, htaken]
      omega
    by_cases hshort : MembersDeclared (data.take h.taken) h
    · exact .inl ⟨by omega, by omega, hshort⟩
    obtain ⟨-, hrecs'⟩ := Classical.not_imp.1 hshort
    rw [not_not, htaken] at hrecs'
    exact .inr (.struct hhead hdeclared hroom hdim hrecs')

theorem decode_front (hok : decodeSymbolUploadDataType [] data = .ok (t, rest)) :
    data = data.take t.info.datatypeEntry.taken ++ rest ∧ data.take t.info.datatypeEntry.taken ≠ [] := by
  obtain ⟨⟨short, hrec⟩, rfl⟩ := decodeDepth_sound _ _ _ _ _ hok
  refine ⟨(take_append_drop _ _).symm, ?_⟩
  intro hnil
  have hlen := congrArg List.length hnil
  have hsize := hrec.head.size
  rw [length_take, length_nil, DatatypeEntry.taken, DatatypeEntry.needed] at hlen
  omega

theorem isLoop_parseDataTypes :
    Reads.IsLoop (decodeSymbolUploadDataType []) (Keyed.store SymbolUploadDataType.name) parseDataTypes where
  nil acc := by rw [parseDataTypes, if_pos rfl]
  error data acc e hne herr := ⟨.entry e, parseDataTypes_of_error acc hne herr⟩
  ok data acc item rest hne hok := parseDataTypes_of_ok acc hne hok
  front data item rest hok := ⟨_, (decode_front hok).2, (decode_front hok).1⟩

/-- What is read is accepted, and with a record that is not exact it is accepted with the flag. -/
theorem accepted_of_reads (hreads : Reads (decodeSymbolUploadDataType []) data records) :
    (∃ short, TypesAccepted data short) ∧
      ((∃ r ∈ records, ¬ TypeExact r.1 r.2.info.datatypeEntry) → TypesAccepted data true) := by
  induction hreads with
  | nil => exact ⟨⟨false, .nil⟩, by simp⟩
  | @cons bytes rest t records hnext hne more ih =>
    obtain ⟨⟨short, hrec⟩, hrest⟩ := decodeDepth_sound _ _ _ _ _ hnext
    have hbytes : bytes = (bytes ++ rest).take t.info.datatypeEntry.taken :=
      append_cancel_right (decode_front hnext).1
    obtain ⟨⟨short', hmore⟩, hbad⟩ := ih
    rw [hrest] at hmore hbad
    refine ⟨⟨short || short', .cons hrec hmore⟩, ?_⟩
    rintro ⟨r, hr, hr'⟩
    rcases mem_cons.1 hr with rfl | hr
    · rcases hrec.exact_or_short with hexact | hshort
      · rw [← hbytes] at hexact
        exact absurd hexact hr'
      · exact .cons hshort hmore
    · have hacc := TypesAccepted.cons hrec (hbad ⟨r, hr, hr'⟩)
      rwa [Bool.or_true] at hacc

/-- What is accepted is read, and with the flag some record is not exact. -/
theorem reads_of_accepted (hacc : TypesAccepted data short) :
    ∃ records, Reads (decodeSymbolUploadDataType []) data records ∧
      (short = true → ∃ r ∈ records, ¬ TypeExact r.1 r.2.info.datatypeEntry) := by
  induction hacc with
  | nil => exact ⟨[], .nil, nofun⟩
  | @cons data h short short' hrec hmore ih =>
    obtain ⟨t, hok, rfl⟩ := hrec.decoded []
    obtain ⟨records, hreads, hbad⟩ := ih
    obtain ⟨hfront, hne⟩ := decode_front hok
    refine ⟨_, Reads.step hok hfront hne hreads, ?_⟩
    intro hshort
    rcases Bool.or_eq_true_iff.1 hshort with rfl | rfl
    · exact ⟨_, mem_cons_self .., hrec.not_exact⟩
    · obtain ⟨r, hr, hr'⟩ := hbad rfl
      exact ⟨r, mem_cons_of_mem _ hr, hr'⟩

/-- The datatype table is framed exactly unless some record declares less than it needs. -/
theorem typesFramed_iff : TypesFramed data ↔ ¬ TypesAccepted data true := by
  constructor
  · intro hframed hacc
    obtain ⟨records, hreads, hbad⟩ := reads_of_accepted hacc
    obtain ⟨r, hr, hr'⟩ := hbad rfl
    obtain ⟨records', hreads', -, -, hexact⟩ := hframed _ (Reads.loop_ok isLoop_parseDataTypes hreads)
    rw [Reads.unique hreads hreads'] at hexact
    exact hr' (hexact r hr)
  intro hacc types hok
  obtain ⟨records, hreads, htypes⟩ := Reads.of_loop isLoop_parseDataTypes hok
  refine ⟨records, hreads, hreads.eq_flatten, htypes, ?_⟩
  intro r hr
  by_contra hr'
  exact hacc ((accepted_of_reads hreads).2 ⟨r, hr, hr'⟩)

end TypeTable

/-! ## Both tables -/

/-- **Which tables are exactly framed.**  A symbol table that is accepted is the concatenation of exact
    records unless a record is cut by its end; a datatype table, unless some record at some level declares
    less than it needs.  Both loops shorten their buffer in every round, and the decoder of a datatype calls
    itself at most as deep as its buffer is long. -/
theorem tables_framed_iff (symbolKey : Text → Text) (datatypes : DataTypes) (data : Bytes) :
    (SymbolsFramed symbolKey datatypes data ↔ ¬ SymbolsCut data) ∧
      (TypesFramed data ↔ ¬ TypesAccepted data true) ∧
        ∀ more parent, decodeDepth (data.length + 1 + more) parent data =
          decodeSymbolUploadDataType parent data :=
  ⟨symbolsFramed_iff, typesFramed_iff, fun _ _ => decodeDepth_eq (by omega) (Nat.lt_succ_self _)⟩

/-- A symbol named `A` that declares 1000 bytes. -/
def overlong : SymbolEntry :=
  { entryLength := 1000, iGroup := 0, iOffs := 0, size := 0, dataType := 0, flags := 0, nameLength := 1
    typeLength := 0, commentLength := 0 }

/-- It is followed by a well-formed symbol named `B`, which disappears. -/
def overlongTable : Bytes :=
  SymbolEntry.layout.put overlong ++ (lit "A" ++ [0, 0, 0]) ++
    (SymbolEntry.layout.put { overlong with entryLength := 34 } ++ (lit "B" ++ [0, 0, 0]))

/-- A datatype named `AAA` that declares no bytes at all. -/
def undeclared : DatatypeEntry := { nameLength := 3 }

def undeclaredTable : Bytes := DatatypeEntry.layout.put undeclared ++ (lit "AAA" ++ [0, 0, 0])

theorem symbolsCut_overlongTable : SymbolsCut overlongTable := by
  refine .here (h := overlong) ⟨⟨_, (append_assoc ..).symm.trans rfl⟩, ?_, ?_⟩ ?_
  · constructor <;> decide
  · decide
  · decide

theorem typesAccepted_undeclaredTable : TypesAccepted undeclaredTable true := by
  have hhead : TypeHeader undeclaredTable undeclared := by
    refine ⟨by decide, ⟨_, rfl⟩, ?_⟩
    constructor <;> decide
  exact .cons (.leaf hhead (by decide)) (by exact .nil)

/-- Both tables are accepted and neither is exactly framed. -/
theorem overlong_and_undeclared_accepted :
    ¬ SymbolsFramed id noDataTypes overlongTable ∧ ¬ TypesFramed undeclaredTable := by
  constructor
  · intro hframed
    exact symbolsFramed_iff.1 hframed symbolsCut_overlongTable
  · intro hframed
    exact typesFramed_iff.1 hframed typesAccepted_undeclaredTable

end GoAds.Upload
