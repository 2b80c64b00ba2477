import Mathlib.Data.List.TakeWhile
import GoAds.Lib.Slices
import GoAds.Codec.Layout
import GoAds.Codec.Resolve

/-!
# `Codec.Bounds` — the slice expressions of `parse`

`symbol.parse` again, with every slice expression and every index it evaluates; it yields nothing where
one of them is out of range, that is, where the program panics.

A leaf checks that it ends within the data before it looks at any of it.  A struct does not check where it
starts: if its offset lies behind the data of its parent, the end of its window is cut down to the end of
the data and comes to lie before its start.  The members of a struct are ranged over in any order, and the
first that fails ends the range, so the result is about all orders.
-/

namespace GoAds.Codec

open LittleEndian Slices List

/-! ## Leaves -/

/-- The number in the bytes of a leaf: one byte is indexed, more are sliced. -/
def numberAt (w : Nat) (data : Bytes) (start stop : Nat) : Option Nat :=
  if w = 1 then data[start]?.map UInt8.toNat else (slice data start stop).bind (leading w)

/-- A type of fixed size looks at its bytes if the size is right. -/
def sizedAt (label : String) (w start stop : Nat) (value : Option Text) : Option (Except CodecErr Text) :=
  if stop - start ≠ w then some (.error (.text (label ++ " Size Wrong"))) else value.map .ok

/-- The first loop over a WSTRING, with `left` pairs to look at: where its terminator is. -/
def wstringEnd (raw : Bytes) : (left i : Nat) → Option Nat
  | 0, _ => some (raw.length / 2 * 2)
  | left + 1, i =>
    raw[i]?.bind fun lo =>
      if lo = 0 then raw[i + 1]?.bind fun hi => if hi = 0 then some i else wstringEnd raw left (i + 2)
      else wstringEnd raw left (i + 2)

/-- The second loop, with `left` code units to read into a slice of `size`. -/
def wstringRunes (raw : Bytes) (size : Nat) : (left i : Nat) → Option (List UInt16)
  | 0, _ => some []
  | left + 1, i =>
    if i / 2 < size then
      ((sliceFrom raw i).bind (leading 2)).bind fun u =>
        (wstringRunes raw size left (i + 2)).map (UInt16.ofNat u :: ·)
    else none

variable (go : Go)

/-- The switch of `parse`, on the bytes from `start` to `stop`. -/
def Scalar.parseAt (data : Bytes) (start stop : Nat) : Scalar → Option (Except CodecErr Text)
  | .bool => sizedAt "BOOL" 1 start stop
    ((slice data start stop).bind fun raw =>
      raw[0]?.map fun b => if b.toNat > 0 then lit "true" else lit "false")
  | .uint w => sizedAt (uintLabel w) w start stop ((numberAt w data start stop).map Decimal.format)
  | .int w => sizedAt (intLabel w) w start stop
    ((numberAt w data start stop).map fun n : Nat => Decimal.formatInt (Int.bmod n (256 ^ w)))
  | .real => sizedAt "REAL" 4 start stop
    ((numberAt 4 data start stop).map fun n => go.formatFloat32 (UInt32.ofNat n))
  | .lreal => sizedAt "LREAL" 8 start stop
    ((numberAt 8 data start stop).map fun n => go.formatFloat64 (UInt64.ofNat n))
  | .string =>
    (slice data start stop).bind fun raw => (slice raw 0 (raw.findIdx (· = 0))).map .ok
  | .wstring =>
    (slice data start stop).bind fun raw =>
      (wstringEnd raw (raw.length / 2) 0).bind fun n =>
        (wstringRunes raw (n / 2) (n / 2) 0).map fun runes => .ok (go.utf16Decode runes)
  | .time => sizedAt "TIME" 4 start stop
    ((numberAt 4 data start stop).map fun n : Nat => go.timeFormat "15:04:05.999999999" (n * 1000000))
  | .tod => sizedAt "TOD" 4 start stop
    ((numberAt 4 data start stop).map fun n : Nat => go.timeFormat "15:04" (n * 1000000))
  | .date => sizedAt "DATE" 4 start stop
    ((numberAt 4 data start stop).map fun n : Nat => go.timeFormat "2006-01-02" (n * 1000000000))
  | .dt => sizedAt "DT" 4 start stop
    ((numberAt 4 data start stop).map fun n : Nat => go.timeFormat "2006-01-02 15:04:05" (n * 1000000000))

/-! ## Trees -/

variable (datatypes : DataTypes)

/-- The leaf of `parse`. -/
def Info.parseLeafAt (info : Info) (data : Bytes) (start stop : Nat) : Option (Except CodecErr Text) :=
  match info.parseType datatypes with
  | .error e => some (.error e)
  | .ok name =>
    match Scalar.ofName name with
    | some scalar => scalar.parseAt go data start stop
    | none => some (.error (unknownFormat name))

mutual

/-- `symbol.parse` with its slices; nothing is the panic of one that is out of range. -/
def Symbol.parseAt : Symbol → Bytes → Nat → Option (Except CodecErr Symbol)
  | .mk info [], data, start =>
    let length := info.length.toNat
    if length > data.length then some (.error (info.exceeds data.length))
    else if start + length > data.length then some (.error (info.tooShort data.length start))
    else
      (info.parseLeafAt go datatypes data start (start + length)).map fun r =>
        r.map fun newValue => .mk (info.updateValue newValue) []
  | .mk info (c :: cs), data, start =>
    let length := info.length.toNat
    if length > data.length then some (.error (info.exceeds data.length))
    else
      let stop := if start + length > data.length then data.length else start + length
      (parseChildrenAt (c :: cs) data start stop).map fun r =>
        r.map fun children => .mk (info.updateValue ((Symbol.mk info children).getJSON go)) children

/-- The range over the members, each of which is given its own slice of the same window. -/
def parseChildrenAt : List Symbol → Bytes → Nat → Nat → Option (Except CodecErr (List Symbol))
  | [], _, _, _ => some (.ok [])
  | s :: ss, data, start, stop =>
    (slice data start stop).bind fun window =>
      (s.parseAt window s.info.offset.toNat).bind fun r =>
        match r with
        | .error e => some (.error (.wrap ("parsing child " ++ s.info.name.quote) e))
        | .ok s' => (parseChildrenAt ss data start stop).map fun rest => rest.map (s' :: ·)

end

variable {go} {datatypes} {data : Bytes} {start stop : Nat}

/-! ## A leaf within the data -/

theorem length_window (hle : start ≤ stop) (hstop : stop ≤ data.length) :
    ((data.drop start).take (stop - start)).length = stop - start := by
  rw [length_take, length_drop]
  omega

variable {raw : Bytes} {info : Info} {cs : List Symbol} {size w : Nat} {c : Symbol}

theorem numberAt_eq (hle : start ≤ stop) (hstop : stop ≤ data.length) (hw : stop - start = w) :
    numberAt w data start stop = some (decode ((data.drop start).take (stop - start))) := by
  unfold numberAt
  by_cases h1 : w = 1
  · have hlt : start < data.length := by omega
    rw [if_pos h1, getElem?_eq_getElem hlt, drop_eq_getElem_cons hlt, hw, h1]
    rfl
  · rw [if_neg h1, slice_of_le hle hstop, Option.bind_some, leading_of_le (by rw [length_window hle hstop, hw]),
      take_of_length_le (by rw [length_window hle hstop, hw])]

theorem sizedAt_eq {label value found}
    (hraw : raw.length = stop - start) (hfound : stop - start = w → found = some value) :
    sizedAt label w start stop found = some (sized label w raw value) := by
  unfold sizedAt sized
  rw [hraw]
  by_cases hw : stop - start = w
  · rw [if_neg (not_not.2 hw), if_neg (not_not.2 hw), hfound hw]
    rfl
  · rw [if_pos hw, if_pos hw]

theorem sizedAt_number {label} (text : Nat → Text) (hle : start ≤ stop)
    (hstop : stop ≤ data.length) : sizedAt label w start stop ((numberAt w data start stop).map text) =
      some (sized label w ((data.drop start).take (stop - start))
        (text (decode ((data.drop start).take (stop - start))))) := by
  apply sizedAt_eq (length_window hle hstop)
  intro hw
  rw [numberAt_eq hle hstop hw]
  rfl

/-! ### WSTRING -/

theorem wstringUnits_cons (lo hi : UInt8) (rest : Bytes) : wstringUnits (lo :: hi :: rest) =
      if lo = 0 ∧ hi = 0 then [] else UInt16.ofNat (decode [lo, hi]) :: wstringUnits rest := by
  rw [wstringUnits]

theorem wstringUnits_of_short (h : raw.length < 2) : wstringUnits raw = [] := by
  match raw, h with
  | [], _ => rfl
  | [_], _ => rfl

theorem length_lt_two (h : ∀ lo hi rest, raw = lo :: hi :: rest → False) : raw.length < 2 := by
  match raw, h with
  | [], _ => exact Nat.two_pos
  | [_], _ => exact Nat.one_lt_two
  | lo :: hi :: rest, h => exact (h lo hi rest rfl).elim

theorem getElem?_append_self {α : Type} (pre suf : List α) (k : Nat) :
    (pre ++ suf)[pre.length + k]? = suf[k]? := by
  rw [getElem?_append_right (Nat.le_add_right _ _), Nat.add_sub_cancel_left]

/-- The terminator of the rest of a WSTRING, behind pairs that are none. -/
theorem wstringEnd_append (pre suf : Bytes) (heven : pre.length % 2 = 0) :
    wstringEnd (pre ++ suf) (suf.length / 2) pre.length =
      some (pre.length + 2 * (wstringUnits suf).length) := by
  induction suf using wstringUnits.induct generalizing pre with
  | case1 lo hi rest hzero =>
    obtain ⟨rfl, rfl⟩ := hzero
    have hleft : (0 :: 0 :: rest : Bytes).length / 2 = rest.length / 2 + 1 := by
      simp only [length_cons]
      omega
    have h0 : (pre ++ 0 :: 0 :: rest : Bytes)[pre.length]? = some 0 := getElem?_append_self pre _ 0
    have h1 : (pre ++ 0 :: 0 :: rest : Bytes)[pre.length + 1]? = some 0 := getElem?_append_self pre _ 1
    rw [hleft, wstringEnd, h0, Option.bind_some, if_pos rfl, h1, Option.bind_some, if_pos rfl,
      wstringUnits_cons, if_pos ⟨rfl, rfl⟩]
    rfl
  | case2 lo hi rest hzero ih =>
    have hleft : (lo :: hi :: rest).length / 2 = rest.length / 2 + 1 := by
      simp only [length_cons]
      omega
    have h0 : (pre ++ lo :: hi :: rest)[pre.length]? = some lo := getElem?_append_self pre _ 0
    have h1 : (pre ++ lo :: hi :: rest)[pre.length + 1]? = some hi := getElem?_append_self pre _ 1
    have hlen : (pre ++ [lo, hi]).length = pre.length + 2 := by
      rw [length_append]
      rfl
    have hnext := ih (pre ++ [lo, hi]) (by rw [hlen]; omega)
    rw [append_assoc, hlen] at hnext
    rw [hleft, wstringEnd, h0, Option.bind_some, wstringUnits_cons, if_neg hzero, length_cons]
    have hgo : wstringEnd (pre ++ lo :: hi :: rest) (rest.length / 2) (pre.length + 2) =
        some (pre.length + 2 * ((wstringUnits rest).length + 1)) := by
      refine Eq.trans hnext ?_
      congr 1
      omega
    by_cases hlo : lo = 0
    · have hhi : hi ≠ 0 := fun h => hzero ⟨hlo, h⟩
      rw [if_pos hlo, h1, Option.bind_some, if_neg hhi]
      exact hgo
    · rw [if_neg hlo]
      exact hgo
  | case3 suf hshort =>
    have hlen := length_lt_two hshort
    rw [show suf.length / 2 = 0 by omega, wstringEnd, wstringUnits_of_short hlen, length_append, length_nil]
    congr 1
    omega

/-- The code units of the rest of a WSTRING, up to its terminator. -/
theorem wstringRunes_append (pre suf : Bytes) (size : Nat) (heven : pre.length % 2 = 0)
    (hsize : pre.length / 2 + (wstringUnits suf).length ≤ size) :
    wstringRunes (pre ++ suf) size (wstringUnits suf).length pre.length = some (wstringUnits suf) := by
  induction suf using wstringUnits.induct generalizing pre with
  | case1 lo hi rest hzero =>
    rw [wstringUnits_cons, if_pos hzero]
    rfl
  | case2 lo hi rest hzero ih =>
    rw [wstringUnits_cons, if_neg hzero, length_cons] at hsize ⊢
    have hlen : (pre ++ [lo, hi]).length = pre.length + 2 := by
      rw [length_append]
      rfl
    have hnext := ih (pre ++ [lo, hi]) (by rw [hlen]; omega) (by rw [hlen]; omega)
    rw [append_assoc, hlen] at hnext
    have hslice : sliceFrom (pre ++ lo :: hi :: rest) pre.length = some (lo :: hi :: rest) := by
      rw [sliceFrom_of_le (by rw [length_append]; omega), drop_left]
    rw [wstringRunes, if_pos (by omega), hslice, Option.bind_some,
      leading_of_le (by simp only [length_cons]; omega), Option.bind_some]
    exact congrArg (Option.map _) hnext
  | case3 suf hshort =>
    rw [wstringUnits_of_short (length_lt_two hshort)]
    rfl

/-- **A leaf within the data is in range**, and its value is that of its bytes. -/
theorem Scalar.parseAt_eq (scalar : Scalar) (hle : start ≤ stop) (hstop : stop ≤ data.length) :
    scalar.parseAt go data start stop =
      some (scalar.parse go ((data.drop start).take (stop - start))) := by
  have hlen := length_window hle hstop
  cases scalar with
  | bool =>
    apply sizedAt_eq hlen
    intro hw
    have hlt : start < data.length := by omega
    rw [slice_of_le hle hstop, hw, drop_eq_getElem_cons hlt]
    rfl
  | uint | int | time | tod | date | dt => exact sizedAt_number _ hle hstop
  | real => exact sizedAt_number (fun n => go.formatFloat32 (UInt32.ofNat n)) hle hstop
  | lreal => exact sizedAt_number (fun n => go.formatFloat64 (UInt64.ofNat n)) hle hstop
  | string =>
    rw [Scalar.parseAt, slice_of_le hle hstop, Option.bind_some,
      slice_of_le (Nat.zero_le _) findIdx_le_length, drop_zero, Nat.sub_zero, Scalar.parse,
      takeWhile_eq_take_findIdx_not]
    simp
  | wstring =>
    have hend := wstringEnd_append [] ((data.drop start).take (stop - start)) rfl
    rw [nil_append, length_nil, Nat.zero_add] at hend
    have hrunes := wstringRunes_append [] ((data.drop start).take (stop - start))
      (wstringUnits ((data.drop start).take (stop - start))).length rfl
      (by rw [length_nil, Nat.zero_div, Nat.zero_add])
    rw [nil_append, length_nil] at hrunes
    rw [Scalar.parseAt, slice_of_le hle hstop, Option.bind_some, hend, Option.bind_some,
      Nat.mul_div_cancel_left _ Nat.two_pos, hrunes]
    rfl

theorem Info.parseLeafAt_eq (info : Info) (hle : start ≤ stop) (hstop : stop ≤ data.length) :
    info.parseLeafAt go datatypes data start stop =
      some (info.parseLeaf go datatypes ((data.drop start).take (stop - start))) := by
  rw [parseLeaf_eq]
  unfold Info.parseLeafAt
  cases info.parseType datatypes with
  | error => rfl
  | ok name =>
    simp only [Except.bind, parseAs]
    cases Scalar.ofName name with
    | none => rfl
    | some scalar => exact scalar.parseAt_eq hle hstop

/-! ## Trees -/

mutual

/-- No struct that is reached starts behind the window it is given: one whose length fits the window of
    its parent starts within it. -/
def Symbol.Windowed : Symbol → (size start : Nat) → Prop
  | .mk _ [], _, _ => True
  | .mk info (c :: cs), size, start =>
    info.length.toNat ≤ size →
      start ≤ size ∧ WindowedAll (c :: cs) (min (start + info.length.toNat) size - start)

def WindowedAll : List Symbol → (size : Nat) → Prop
  | [], _ => True
  | s :: ss, size => s.Windowed size s.info.offset.toNat ∧ WindowedAll ss size

end

theorem windowedAll_iff : WindowedAll cs size ↔ ∀ c ∈ cs, c.Windowed size c.info.offset.toNat := by
  induction cs with
  | nil => simp [WindowedAll]
  | cons c cs ih => rw [WindowedAll, ih, forall_mem_cons]

theorem windowed_iff (hne : cs ≠ []) : (Symbol.mk info cs).Windowed size start ↔
      (info.length.toNat ≤ size → start ≤ size ∧
        ∀ c ∈ cs, c.Windowed (min (start + info.length.toNat) size - start) c.info.offset.toNat) := by
  obtain ⟨c, cs, rfl⟩ := exists_cons_of_ne_nil hne
  rw [Symbol.Windowed, windowedAll_iff]

/-! ### Within their windows -/

theorem parseChildrenAt_isSome (hle : start ≤ stop) (hstop : stop ≤ data.length)
    (h : ∀ c ∈ cs, (c.parseAt go datatypes ((data.drop start).take (stop - start)) c.info.offset.toNat).isSome =
      true) : (parseChildrenAt go datatypes cs data start stop).isSome = true := by
  induction cs with
  | nil => rfl
  | cons c cs ih =>
    obtain ⟨r, hr⟩ := Option.isSome_iff_exists.1 (h c (mem_cons_self ..))
    rw [parseChildrenAt, slice_of_le hle hstop, Option.bind_some, hr, Option.bind_some]
    cases r with
    | error => rfl
    | ok =>
      rw [Option.isSome_map]
      exact ih fun d hd => h d (mem_cons_of_mem _ hd)

/-- A struct whose length fits the data ranges over its members. -/
theorem parseAt_composite (hlen : info.length.toNat ≤ data.length) :
    (Symbol.mk info (c :: cs)).parseAt go datatypes data start =
      (parseChildrenAt go datatypes (c :: cs) data start (min (start + info.length.toNat) data.length)).map
        fun r => r.map fun children =>
          .mk (info.updateValue ((Symbol.mk info children).getJSON go)) children := by
  rw [Symbol.parseAt, if_neg (Nat.not_lt.2 hlen), ite_stop]

variable (s : Symbol)

theorem Symbol.Windowed.parseAt_isSome : ∀ data start, s.Windowed data.length start →
    (s.parseAt go datatypes data start).isSome = true := by
  induction s using Symbol.induction with
  | node info cs ih =>
    intro data start h
    cases cs with
    | nil =>
      rw [Symbol.parseAt]
      split
      · rfl
      split
      · rfl
      next hlen hend =>
      rw [Info.parseLeafAt_eq info (Nat.le_add_right _ _) (Nat.not_lt.1 hend)]
      rfl
    | cons c cs =>
      by_cases hlen : info.length.toNat > data.length
      · rw [Symbol.parseAt, if_pos hlen]
        rfl
      obtain ⟨hstart, hcs⟩ := (windowed_iff (cons_ne_nil c cs)).1 h (Nat.not_lt.1 hlen)
      have hle : start ≤ min (start + info.length.toNat) data.length := by omega
      have hstop : min (start + info.length.toNat) data.length ≤ data.length := Nat.min_le_right _ _
      rw [parseAt_composite (Nat.not_lt.1 hlen), Option.isSome_map]
      apply parseChildrenAt_isSome hle hstop
      intro d hd
      apply ih d hd
      rw [length_window hle hstop]
      exact hcs d hd

/-! ### The same function -/

theorem parseChildren_of_parseChildrenAt (hle : start ≤ stop) (hstop : stop ≤ data.length)
    (h : ∀ c ∈ cs, ∀ r, c.parseAt go datatypes ((data.drop start).take (stop - start)) c.info.offset.toNat =
      some r → c.parse go datatypes ((data.drop start).take (stop - start)) c.info.offset.toNat = r)
    {r} (hr : parseChildrenAt go datatypes cs data start stop = some r) :
    parseChildren go datatypes cs ((data.drop start).take (stop - start)) = r := by
  induction cs generalizing r with
  | nil =>
    rw [parseChildrenAt] at hr
    rw [parseChildren]
    exact Option.some.inj hr
  | cons c cs ih =>
    rw [parseChildrenAt, slice_of_le hle hstop, Option.bind_some] at hr
    obtain ⟨rc, hrc, hr⟩ := Option.bind_eq_some_iff.1 hr
    rw [parseChildren, h c (mem_cons_self ..) rc hrc]
    cases rc with
    | error => exact Option.some.inj hr
    | ok =>
      obtain ⟨rest, hrest, rfl⟩ := Option.map_eq_some_iff.1 hr
      simp only [ih (fun d hd => h d (mem_cons_of_mem _ hd)) hrest]

/-- **Where no slice is out of range, it is `parse`.** -/
theorem parse_of_parseAt : ∀ data start r, s.parseAt go datatypes data start = some r →
    s.parse go datatypes data start = r := by
  induction s using Symbol.induction with
  | node info cs ih =>
    intro data start r hr
    cases cs with
    | nil =>
      rw [Symbol.parseAt] at hr
      rw [Symbol.parse]
      split at hr
      · next hlen =>
        rw [if_pos hlen]
        exact Option.some.inj hr
      next hlen =>
      rw [if_neg hlen]
      split at hr
      · next hend =>
        rw [if_pos hend]
        exact Option.some.inj hr
      next hend =>
      rw [if_neg hend]
      rw [Info.parseLeafAt_eq info (Nat.le_add_right _ _) (Nat.not_lt.1 hend), Nat.add_sub_cancel_left,
        Option.map_some] at hr
      cases hr
      cases info.parseLeaf go datatypes ((data.drop start).take info.length.toNat) <;> rfl
    | cons =>
      by_cases hlen : info.length.toNat > data.length
      · rw [Symbol.parseAt, if_pos hlen] at hr
        rw [Symbol.parse, if_pos hlen]
        exact Option.some.inj hr
      rw [parseAt_composite (Nat.not_lt.1 hlen)] at hr
      obtain ⟨rc, hrc, rfl⟩ := Option.map_eq_some_iff.1 hr
      have hstart : start ≤ min (start + info.length.toNat) data.length := by
        by_contra hlt
        rw [parseChildrenAt, slice_of_lt (Nat.not_le.1 hlt)] at hrc
        cases hrc
      have hchildren := parseChildren_of_parseChildrenAt hstart (Nat.min_le_right _ _)
        (fun d hd r => ih d hd _ _ r) hrc
      rw [Symbol.parse, if_neg hlen, ite_stop, if_neg (Nat.not_lt.2 hstart), hchildren]
      cases rc <;> rfl

/-! ### In every order -/

theorem forall₂_refl (h : ∀ c ∈ cs, Reordered c c) : Forall₂ Reordered cs cs :=
  forall₂_same.2 h

theorem Reordered.refl : Reordered s s := by
  induction s using Symbol.induction with
  | node info cs ih =>
    have h : Reordered (.mk info cs) (.mk (info.updateValue info.value) cs) :=
      .node (forall₂_refl ih) (Perm.refl cs)
    exact h

theorem Symbol.Windowed.reordered : ∀ t size start, Reordered s t → s.Windowed size start →
    t.Windowed size start := by
  induction s using Symbol.induction with
  | node info cs ih =>
    intro t size start ht h
    obtain ⟨text, ds, rfl, -, hback, -⟩ := ht.members
    by_cases hds : ds = []
    · rw [hds, Symbol.Windowed]
      trivial
    obtain ⟨d, hd⟩ := exists_mem_of_ne_nil ds hds
    obtain ⟨c, hc, -⟩ := hback d hd
    rw [windowed_iff (ne_nil_of_mem hc)] at h
    rw [windowed_iff hds]
    intro hlen
    obtain ⟨hstart, hcs⟩ := h hlen
    refine ⟨hstart, fun d hd => ?_⟩
    obtain ⟨c, hc, hcd⟩ := hback d hd
    have hinfo : d.info.offset = c.info.offset := by
      obtain ⟨_, heq⟩ := hcd.info_eq
      rw [heq]
      rfl
    rw [hinfo]
    exact ih c hc d _ _ hcd (hcs c hc)

theorem exists_reordered_first (info : Info) {c'} (hc : c ∈ cs)
    (hcc' : Reordered c c') : ∃ ds, Reordered (.mk info cs) (.mk info (c' :: ds)) := by
  obtain ⟨as, bs, rfl⟩ := append_of_mem hc
  have hmembers : Forall₂ Reordered (as ++ c :: bs) (as ++ c' :: bs) :=
    rel_append (forall₂_refl fun d _ => .refl d) (.cons hcc' (forall₂_refl fun d _ => .refl d))
  have h : Reordered (.mk info (as ++ c :: bs)) (.mk (info.updateValue info.value) (c' :: (as ++ bs))) :=
    .node hmembers perm_middle
  exact ⟨as ++ bs, h⟩

/-- A struct that starts behind its window is sliced out of range. -/
theorem parseAt_eq_none_of_behind (hlen : info.length.toNat ≤ data.length) (hstart : data.length < start) :
    (Symbol.mk info (c :: cs)).parseAt go datatypes data start = none := by
  rw [parseAt_composite hlen, parseChildrenAt,
    slice_of_lt (by omega : min (start + info.length.toNat) data.length < start)]
  rfl

/-- A member that is out of range, and is ranged over first, takes its parent along. -/
theorem parseAt_eq_none_of_first (hlen : info.length.toNat ≤ data.length) (hstart : start ≤ data.length)
    (hc : c.parseAt go datatypes
      ((data.drop start).take (min (start + info.length.toNat) data.length - start)) c.info.offset.toNat =
        none) : (Symbol.mk info (c :: cs)).parseAt go datatypes data start = none := by
  rw [parseAt_composite hlen, parseChildrenAt, slice_of_le (by omega) (Nat.min_le_right _ _),
    Option.bind_some, hc]
  rfl

variable (go datatypes) in
theorem exists_parseAt_eq_none : ∀ data start, ¬s.Windowed data.length start →
    ∃ t, Reordered s t ∧ t.parseAt go datatypes data start = none := by
  induction s using Symbol.induction with
  | node info cs ih =>
    intro data start h
    by_cases hcs : cs = []
    · rw [hcs, Symbol.Windowed] at h
      exact absurd trivial h
    rw [windowed_iff hcs] at h
    push Not at h
    obtain ⟨hlen, h⟩ := h
    by_cases hstart : start ≤ data.length
    · obtain ⟨c, hc, hnot⟩ := h hstart
      have hwindow := length_window (by omega : start ≤ min (start + info.length.toNat) data.length)
        (Nat.min_le_right _ _)
      rw [← hwindow] at hnot
      obtain ⟨c', hcc', hnone⟩ := ih c hc _ _ hnot
      obtain ⟨ds, hds⟩ := exists_reordered_first info hc hcc'
      have hinfo : c'.info.offset = c.info.offset := by
        obtain ⟨_, heq⟩ := hcc'.info_eq
        rw [heq]
        rfl
      rw [← hinfo] at hnone
      exact ⟨_, hds, parseAt_eq_none_of_first hlen hstart hnone⟩
    · obtain ⟨c, cs, rfl⟩ := exists_cons_of_ne_nil hcs
      exact ⟨_, .refl _, parseAt_eq_none_of_behind hlen (Nat.not_le.1 hstart)⟩

/-- **No slice or index of `parse` is out of range, in any order, exactly when** no struct that is reached
    starts behind the window it is given. -/
theorem parseAt_isSome_iff (go : Go) (datatypes : DataTypes) (s : Symbol) (data : Bytes) :
    (∀ t, Reordered s t → (t.parseAt go datatypes data 0).isSome = true) ↔ s.Windowed data.length 0 := by
  constructor
  · intro h
    by_contra hnot
    obtain ⟨t, ht, hnone⟩ := exists_parseAt_eq_none go datatypes s data 0 hnot
    have hsome := h t ht
    rw [hnone] at hsome
    cases hsome
  · intro h t ht
    exact (h.reordered s t _ _ ht).parseAt_isSome t data 0

namespace Example

/-- A struct of one byte, at an offset that its parent of two bytes does not have. -/
def outside : Symbol :=
  .mk { key := "r", name := "r", dataType := "ST_ROOT", offset := 0, length := 2 }
    [.mk { key := "m", name := "m", dataType := "ST_MEMBER", offset := 5, length := 1 }
      [.mk { key := "b", name := "b", dataType := "BYTE", offset := 0, length := 1 } []]]

end Example

/-- `parse` slices two bytes from the fifth to the second. -/
theorem outside_panics : Example.outside.parseAt JsonText.go (fun _ => none) [1, 2] 0 = none := by
  apply parseAt_eq_none_of_first (by decide) (by decide)
  exact parseAt_eq_none_of_behind (by decide) (by decide)

end GoAds.Codec
