import GoAds.Codec.JsonText
import GoAds.Lib.Calendar

/-!
# `Codec.Times` — dates and times as text

A TIME or a TOD is milliseconds, a DATE or a DT seconds since 1970, in four bytes.  Reading formats the
moment with a layout; writing parses the text with the layout, makes a moment of the fields again and takes
its milliseconds or seconds modulo 2³².

* `Civil.unixNanos`, `civilOf` — a date and time of day against the nanoseconds since 1970, in both directions.
* `Go.ExactTime` — what is assumed of the standard library: parsing what was formatted gives the fields that
  the layout has, and `time.Date` is the calendar.
* `unchanged_iff` — which contents survive being read and written back: a TIME loses its days, a TOD its
  seconds.
* `storedAsItself_iff` — which dates are stored as themselves: those in the range of the four bytes.
-/

namespace GoAds.Codec

open LittleEndian Calendar List

/-! ## Moments -/

def dayNanos : Int := 86400000000000

/-- The days from the first of January of the year 0 to that of 1970. -/
def unixDay : Int := 719528

namespace Civil

def date (c : Civil) : Date := ⟨c.year, c.month, c.day⟩

/-- The nanoseconds since midnight. -/
def clock (c : Civil) : Nat := ((c.hour * 60 + c.minute) * 60 + c.second) * 1000000000 + c.nanosecond

structure Valid (c : Civil) : Prop where
  date : c.date.Valid
  hour : c.hour < 24
  minute : c.minute < 60
  second : c.second < 60
  nanosecond : c.nanosecond < 1000000000

def unixNanos (c : Civil) : Int := (c.date.number - unixDay) * dayNanos + c.clock

theorem clock_lt {c : Civil} (h : c.Valid) : (c.clock : Int) < dayNanos := by
  obtain ⟨-, hhour, hminute, hsecond, hnano⟩ := h
  unfold clock dayNanos
  omega

end Civil

variable (n : Int)

/-- The date and time of day, so many nanoseconds after 1970. -/
def civilOf : Civil :=
  let d := ofNumber (n / dayNanos + unixDay)
  let t := (n % dayNanos).toNat
  { year := d.year
    month := d.month
    day := d.day
    hour := t / 3600000000000
    minute := t / 60000000000 % 60
    second := t / 1000000000 % 60
    nanosecond := t % 1000000000 }

theorem date_civilOf : (civilOf n).date = ofNumber (n / dayNanos + unixDay) := rfl

theorem clock_civilOf : ((civilOf n).clock : Int) = n % dayNanos := by
  have hpos : 0 ≤ n % dayNanos := Int.emod_nonneg n (by decide)
  have hlt : n % dayNanos < dayNanos := Int.emod_lt_of_pos n (by decide)
  unfold Civil.clock civilOf
  dsimp only
  unfold dayNanos at *
  omega

theorem valid_civilOf : (civilOf n).Valid := by
  have hpos : 0 ≤ n % dayNanos := Int.emod_nonneg n (by decide)
  have hlt : n % dayNanos < dayNanos := Int.emod_lt_of_pos n (by decide)
  refine ⟨valid_ofNumber _, ?_, Nat.mod_lt _ (by decide), Nat.mod_lt _ (by decide), Nat.mod_lt _ (by decide)⟩
  unfold civilOf
  dsimp only
  unfold dayNanos at *
  omega

theorem unixNanos_civilOf : (civilOf n).unixNanos = n := by
  rw [Civil.unixNanos, clock_civilOf, date_civilOf, number_ofNumber, Int.add_sub_cancel]
  exact Int.ediv_mul_add_emod n dayNanos

theorem civilOf_unixNanos {c : Civil} (h : c.Valid) : civilOf c.unixNanos = c := by
  have hclock := Civil.clock_lt h
  have hday : c.unixNanos / dayNanos = c.date.number - unixDay := by
    rw [Civil.unixNanos, Int.add_comm, Int.add_mul_ediv_right _ _ (by decide),
      Int.ediv_eq_zero_of_lt (Int.natCast_nonneg _) hclock, Int.zero_add]
  have htime : (c.unixNanos % dayNanos).toNat = c.clock := by
    rw [Civil.unixNanos, Int.add_comm, Int.add_mul_emod_self_right,
      Int.emod_eq_of_lt (Int.natCast_nonneg _) hclock, Int.toNat_natCast]
  obtain ⟨hdate, hhour, hminute, hsecond, hnano⟩ := h
  unfold civilOf
  rw [hday, htime, Int.sub_add_cancel, ofNumber_number hdate]
  obtain ⟨year, month, day, hour, minute, second, nanosecond⟩ := c
  simp only [Civil.clock, Civil.date, Civil.mk.injEq, true_and] at *
  refine ⟨?_, ?_, ?_, ?_⟩
  · omega
  · omega
  · omega
  · omega

/-! ## The standard library -/

def timeLayouts : List String := ["15:04:05.999999999", "15:04", "2006-01-02", "2006-01-02 15:04:05"]

variable (layout : String)

/-- The fields that a layout has; `time.Parse` takes the others from the first moment of the year 0. -/
def shown (c : Civil) : Civil :=
  if layout = "15:04" then ⟨0, 1, 1, c.hour, c.minute, 0, 0⟩
  else if layout = "2006-01-02" then { c with hour := 0, minute := 0, second := 0, nanosecond := 0 }
  else if layout = "2006-01-02 15:04:05" then { c with nanosecond := 0 }
  else ⟨0, 1, 1, c.hour, c.minute, c.second, c.nanosecond⟩

/-- Formatting and parsing are exact for these layouts, and `time.Date` is the calendar.  Moments are those
    that a symbol can hold, up to 2³² seconds after 1970. -/
structure Go.ExactTime (go : Go) : Prop where
  parse_format : ∀ layout ∈ timeLayouts, ∀ n, 0 ≤ n → n < 2 ^ 32 * 1000000000 →
    go.timeParse layout (go.timeFormat layout n) = some (shown layout (civilOf n))
  parse_valid : ∀ layout value c, go.timeParse layout value = some c → c.Valid
  date : ∀ c, c.Valid → go.timeDate c = c.unixNanos

/-! ## Reading and writing back -/

section Unchanged

variable {go : Go} {datatypes : DataTypes} {info : Info} {scalar : Scalar} {raw : Bytes} {value : Text}
  {c : Civil} {k : Nat}

/-- **Reading a symbol and writing its text back leaves its bytes as they are.** -/
def Unchanged (go : Go) (datatypes : DataTypes) (s : Symbol) (raw : Bytes) : Prop :=
  ∃ s', s.parse go datatypes raw 0 = .ok s' ∧ s'.writeToNode go datatypes s'.value = .ok raw

/-- The contents in question: all of a TIME and a DT, the milliseconds of a day, and whole days. -/
def Scalar.TimeContent (n : Nat) : Scalar → Prop
  | .time | .dt => True
  | .tod => n < 86400000
  | .date => n % 86400 = 0
  | _ => False

/-- A TIME of less than a day, and a TOD of whole minutes. -/
def Scalar.Restored (n : Nat) : Scalar → Prop
  | .time => n < 86400000
  | .tod => n % 60000 = 0
  | _ => True

section

variable (htype : Scalar.ofName info.dataType = some scalar) (hlen : info.length = 4) (hraw : raw.length = 4)

include htype hlen hraw

theorem parse_timeLeaf : (Symbol.mk info []).parse go datatypes raw 0 =
      (scalar.parse go raw).map fun text => .mk (info.updateValue text) [] := by
  have hfour : info.length.toNat = 4 := by
    rw [hlen]
    rfl
  have hread : info.parseLeaf go datatypes raw = scalar.parse go raw := by
    rw [Info.parseLeaf]
    simp only [htype]
  rw [Symbol.parse]
  simp only [hfour, hraw, Nat.zero_add, Nat.lt_irrefl, gt_iff_lt, if_false, drop_zero]
  rw [← hraw, take_length, hread]
  cases scalar.parse go raw with
  | error | ok => rfl

theorem parse_timed {label text} (hparse : scalar.parse go raw = sized label 4 raw text) :
    (Symbol.mk info []).parse go datatypes raw 0 = .ok (.mk (info.updateValue text) []) := by
  rw [parse_timeLeaf htype hlen hraw, hparse, sized, if_neg (not_not.2 hraw)]
  rfl

end

section

variable (htype : Scalar.ofName info.dataType = some scalar) (hlen : info.length = 4)

include htype hlen

theorem writeToNode_leaf (value text : Text) :
    (Symbol.mk (info.updateValue value) []).writeToNode go datatypes text = scalar.write go 4 text := by
  rw [Symbol.writeToNode, Info.writeLeaf, Info.updateValue]
  simp only [htype, hlen]
  rfl

theorem unchanged_leaf (hraw : raw.length = 4) : Unchanged go datatypes (.mk info []) raw ↔
      ∃ text, scalar.parse go raw = .ok text ∧ scalar.write go 4 text = .ok raw := by
  rw [Unchanged, parse_timeLeaf htype hlen hraw]
  constructor
  · rintro ⟨s', hok, hwrite⟩
    cases htext : scalar.parse go raw with
    | error =>
      rw [htext] at hok
      cases hok
    | ok text =>
      rw [htext] at hok
      cases hok
      rw [writeToNode_leaf htype hlen] at hwrite
      exact ⟨text, rfl, hwrite⟩
  · rintro ⟨text, htext, hwrite⟩
    refine ⟨.mk (info.updateValue text) [], ?_, ?_⟩
    · rw [htext]
      rfl
    · rw [writeToNode_leaf htype hlen]
      exact hwrite

end

theorem unitsBytes_eq_iff {k : Nat} (hraw : raw.length = 4) (hk : k < 2 ^ 32) (unit : Int) (hunit : 0 < unit) :
    unitsBytes unit (k * unit) = raw ↔ k = decode raw := by
  have hunits : Int.tdiv (k * unit) unit = k := Int.mul_tdiv_cancel _ (by omega)
  have hmod : ((k : Int) % 2 ^ 32).toNat = k := by omega
  rw [unitsBytes, hunits, hmod]
  constructor
  · rintro rfl
    exact (decode_encode_of_lt hk).symm
  rintro rfl
  rw [← hraw]
  exact encode_decode raw

theorem epoch_valid : (⟨1970, 1, 1⟩ : Date).Valid ∧ (⟨1970, 1, 1⟩ : Date).number = unixDay := by
  refine ⟨⟨by decide, by decide, by decide⟩, by decide⟩

theorem civilNanos_format (hexact : go.ExactTime) {layout} (hlayout : layout ∈ timeLayouts)
    {keep : Civil → Civil} {n} (hkeep : (keep (shown layout (civilOf n))).Valid) (message : String)
    (layouts : List String) (hpos : 0 ≤ n) (hlt : n < 2 ^ 32 * 1000000000) :
    civilNanos go keep message (layout :: layouts) (go.timeFormat layout n) =
      .ok (keep (shown layout (civilOf n))).unixNanos := by
  rw [civilNanos, findSome?_cons, hexact.parse_format layout hlayout n hpos hlt]
  show Except.ok (go.timeDate (keep (shown layout (civilOf n)))) = _
  rw [hexact.date _ hkeep]

theorem unixNanos_epoch (hour minute second nanosecond : Nat) :
    (⟨1970, 1, 1, hour, minute, second, nanosecond⟩ : Civil).unixNanos =
      ((hour * 60 + minute) * 60 + second) * 1000000000 + nanosecond := by
  have hday : (⟨1970, 1, 1, hour, minute, second, nanosecond⟩ : Civil).date.number = unixDay := epoch_valid.2
  rw [Civil.unixNanos, hday, Int.sub_self, Int.zero_mul, Int.zero_add, Civil.clock]
  push_cast
  rfl

theorem content_lt (hraw : raw.length = 4) {unit} (hpos : 0 ≤ unit) (hunit : unit ≤ 1000000000) :
    0 ≤ (decode raw : Int) * unit ∧ (decode raw : Int) * unit < 2 ^ 32 * 1000000000 := by
  have hlt : decode raw < 2 ^ 32 := by
    have h := decode_lt raw
    rw [hraw] at h
    exact h
  refine ⟨Int.mul_nonneg (Int.natCast_nonneg _) hpos, ?_⟩
  calc (decode raw : Int) * unit ≤ (decode raw : Int) * 1000000000 :=
        Int.mul_le_mul_of_nonneg_left hunit (Int.natCast_nonneg _)
    _ < 2 ^ 32 * 1000000000 := by omega

/-- The time of day of a moment, and its hours and minutes, on the first day of 1970. -/
theorem unixNanos_clock (n : Int) :
    (⟨1970, 1, 1, (civilOf n).hour, (civilOf n).minute, (civilOf n).second, (civilOf n).nanosecond⟩ :
      Civil).unixNanos = n % dayNanos ∧
    (⟨1970, 1, 1, (civilOf n).hour, (civilOf n).minute, 0, 0⟩ : Civil).unixNanos =
      n % dayNanos / 60000000000 * 60000000000 := by
  have hclock := clock_civilOf n
  obtain ⟨-, -, -, hsecond, hnano⟩ := valid_civilOf n
  rw [unixNanos_epoch, unixNanos_epoch]
  unfold Civil.clock dayNanos at *
  omega

/-- A TIME comes back without its days. -/
theorem write_time (hexact : go.ExactTime) (hraw : raw.length = 4) :
    Scalar.write go 4 (Scalar.timeText go "15:04:05.999999999" 1000000 raw) .time =
      .ok (unitsBytes 1000000 ((decode raw % 86400000 : Nat) * 1000000)) := by
  obtain ⟨hpos, hlt⟩ := content_lt hraw (show (0 : Int) ≤ 1000000 by decide) (by decide)
  obtain ⟨-, hhour, hminute, hsecond, hnano⟩ := valid_civilOf (decode raw * 1000000)
  rw [Scalar.write, Scalar.timeText, civilNanos_format hexact (by decide) ?_ _ _ hpos hlt]
  · have hmoment : (decode raw : Int) * 1000000 % dayNanos = (decode raw % 86400000 : Nat) * 1000000 := by
      unfold dayNanos
      omega
    rw [← hmoment, ← (unixNanos_clock _).1]
    rfl
  · exact ⟨epoch_valid.1, hhour, hminute, hsecond, hnano⟩

/-- A TOD comes back without its seconds. -/
theorem write_tod (hexact : go.ExactTime) (hraw : raw.length = 4) :
    Scalar.write go 4 (Scalar.timeText go "15:04" 1000000 raw) .tod =
      .ok (unitsBytes 1000000 ((decode raw % 86400000 / 60000 * 60000 : Nat) * 1000000)) := by
  obtain ⟨hpos, hlt⟩ := content_lt hraw (show (0 : Int) ≤ 1000000 by decide) (by decide)
  obtain ⟨-, hhour, hminute, -⟩ := valid_civilOf (decode raw * 1000000)
  rw [Scalar.write, Scalar.timeText, civilNanos_format hexact (by decide) ?_ _ _ hpos hlt]
  · have hmoment : (decode raw : Int) * 1000000 % dayNanos / 60000000000 * 60000000000 =
        (decode raw % 86400000 / 60000 * 60000 : Nat) * 1000000 := by
      unfold dayNanos
      omega
    rw [← hmoment, ← (unixNanos_clock _).2]
    rfl
  · exact ⟨epoch_valid.1, hhour, hminute, Nat.zero_lt_succ _, Nat.zero_lt_succ _⟩

/-- The layout of the texts of a DATE and of a DT. -/
def Scalar.dateLayout : Scalar → String
  | .date => "2006-01-02"
  | _ => "2006-01-02 15:04:05"

def Civil.unixSeconds (c : Civil) : Int := c.unixNanos / 1000000000

theorem dateLayout_mem (hdate : scalar = .date ∨ scalar = .dt) : scalar.dateLayout ∈ timeLayouts := by
  rcases hdate with rfl | rfl <;> decide

theorem shown_date (hdate : scalar = .date ∨ scalar = .dt) (hc : c.Valid) :
    (shown scalar.dateLayout c).Valid ∧
      (shown scalar.dateLayout c).unixNanos = (shown scalar.dateLayout c).unixSeconds * 1000000000 ∧
      shown scalar.dateLayout (shown scalar.dateLayout c) = shown scalar.dateLayout c := by
  obtain ⟨hvalid, hhour, hminute, hsecond, hnano⟩ := hc
  -- it has no fraction of a second
  have hwhole : ∀ c : Civil, c.nanosecond = 0 → c.unixNanos = c.unixSeconds * 1000000000 := by
    intro c hnano
    rw [Civil.unixSeconds, Civil.unixNanos, Civil.clock, hnano, dayNanos]
    omega
  rcases hdate with rfl | rfl
  · exact ⟨⟨hvalid, Nat.zero_lt_succ _, Nat.zero_lt_succ _, Nat.zero_lt_succ _, Nat.zero_lt_succ _⟩,
      hwhole _ rfl, rfl⟩
  · exact ⟨⟨hvalid, hhour, hminute, hsecond, Nat.zero_lt_succ _⟩, hwhole _ rfl, rfl⟩

/-- A text that the layout reads is always accepted: its seconds are taken modulo 2³². -/
theorem write_of_parse (hexact : go.ExactTime) (hdate : scalar = .date ∨ scalar = .dt)
    (hc : go.timeParse scalar.dateLayout value = some c) :
    scalar.write go 4 value = .ok (unitsBytes 1000000000 (shown scalar.dateLayout c).unixNanos) := by
  have hvalid := (shown_date hdate (hexact.parse_valid _ _ _ hc)).1
  have hmoment := hexact.date _ hvalid
  rcases hdate with rfl | rfl
  all_goals
    simp only [Scalar.dateLayout] at hc
    rw [Scalar.write, civilNanos, findSome?_cons, hc]
    exact congrArg (fun n => Except.ok (unitsBytes 1000000000 n)) hmoment

/-- A DATE of whole days shows all of its content, and so does every DT. -/
theorem shown_content (hdate : scalar = .date ∨ scalar = .dt) (hcontent : scalar.TimeContent k) :
    (shown scalar.dateLayout (civilOf (k * 1000000000))).unixNanos = k * 1000000000 := by
  have hseconds : (civilOf (k * 1000000000)).nanosecond = 0 := by
    show ((k : Int) * 1000000000 % dayNanos).toNat % 1000000000 = 0
    unfold dayNanos
    omega
  rcases hdate with rfl | rfl
  · have hdays : k % 86400 = 0 := hcontent
    have hnumber : (shown (Scalar.dateLayout .date) (civilOf (k * 1000000000))).date.number =
        k * 1000000000 / dayNanos + unixDay := number_ofNumber _
    have hclock : (shown (Scalar.dateLayout .date) (civilOf (k * 1000000000))).clock = 0 := by
      simp [shown, Scalar.dateLayout, Civil.clock]
    rw [Civil.unixNanos, hnumber, hclock]
    unfold dayNanos
    omega
  have hsame : shown (Scalar.dateLayout .dt) (civilOf (k * 1000000000)) = civilOf (k * 1000000000) := by
    show ({ civilOf (k * 1000000000) with nanosecond := 0 } : Civil) = _
    rw [← hseconds]
  rw [hsame, unixNanos_civilOf]

/-- A DATE of whole days comes back, and so does every DT. -/
theorem write_dateText (hexact : go.ExactTime) (hraw : raw.length = 4) (hdate : scalar = .date ∨ scalar = .dt)
    (hcontent : scalar.TimeContent (decode raw)) :
    scalar.write go 4 (Scalar.timeText go scalar.dateLayout 1000000000 raw) =
      .ok (unitsBytes 1000000000 (decode raw * 1000000000)) := by
  obtain ⟨hpos, hlt⟩ := content_lt hraw (show (0 : Int) ≤ 1000000000 by decide) (by decide)
  have hparse := hexact.parse_format _ (dateLayout_mem hdate) _ hpos hlt
  obtain ⟨-, -, hagain⟩ := shown_date hdate (valid_civilOf (decode raw * 1000000000))
  rw [Scalar.timeText, write_of_parse hexact hdate hparse, hagain, shown_content hdate hcontent]

/-- A content is unchanged if the number that comes back is the one that was there. -/
theorem exists_text_iff {label : String} {text : Text} {k : Nat} {unit : Int} (hraw : raw.length = 4)
    (hparse : scalar.parse go raw = sized label 4 raw text)
    (hwrite : scalar.write go 4 text = .ok (unitsBytes unit (k * unit))) (hk : k ≤ decode raw)
    (hunit : 0 < unit) :
    (∃ text, scalar.parse go raw = .ok text ∧ scalar.write go 4 text = .ok raw) ↔ k = decode raw := by
  have hlt : decode raw < 2 ^ 32 := by
    have h := decode_lt raw
    rw [hraw] at h
    exact h
  have hread : scalar.parse go raw = .ok text := by
    rw [hparse, sized, if_neg (not_not.2 hraw)]
  rw [← unitsBytes_eq_iff hraw (Nat.lt_of_le_of_lt hk hlt) unit hunit]
  constructor
  · rintro ⟨text', htext, hback⟩
    cases hread.symm.trans htext
    exact Except.ok.inj (hwrite.symm.trans hback)
  intro hback
  refine ⟨text, hread, ?_⟩
  rw [hwrite, hback]

/-- **A TIME survives if it is less than a day, a TOD if it is whole minutes, and every DATE and DT does.** -/
theorem unchanged_iff (hexact : go.ExactTime) (htype : Scalar.ofName info.dataType = some scalar)
    (hlen : info.length = 4) (hraw : raw.length = 4) (hcontent : scalar.TimeContent (decode raw)) :
    Unchanged go datatypes (.mk info []) raw ↔ scalar.Restored (decode raw) := by
  rw [unchanged_leaf htype hlen hraw]
  cases scalar with
  | time =>
    rw [exists_text_iff hraw rfl (write_time hexact hraw) (Nat.mod_le _ _) (by decide)]
    show _ ↔ decode raw < 86400000
    omega
  | tod =>
    have hday : decode raw < 86400000 := hcontent
    rw [exists_text_iff hraw rfl (write_tod hexact hraw) (by omega) (by decide)]
    show _ ↔ decode raw % 60000 = 0
    omega
  | date =>
    rw [exists_text_iff hraw rfl (write_dateText hexact hraw (.inl rfl) hcontent) (Nat.le_refl _) (by decide)]
    exact iff_true_intro rfl
  | dt =>
    rw [exists_text_iff hraw rfl (write_dateText hexact hraw (.inr rfl) hcontent) (Nat.le_refl _) (by decide)]
    exact iff_true_intro rfl
  | _ => exact hcontent.elim

end Unchanged

/-! ### A standard library with the texts of Go -/

def digits : Nat → Nat → Text
  | 0, _ => []
  | w + 1, k => UInt8.ofNat (48 + k / 10 ^ w % 10) :: digits w k

/-- Reads so many digits behind those that make `acc`. -/
def readDigits : Nat → Nat → Text → Option (Nat × Text)
  | 0, acc, text => some (acc, text)
  | _ + 1, _, [] => none
  | w + 1, acc, b :: text => (Decimal.digitValue b).bind fun d => readDigits w (acc * 10 + d) text

theorem readDigits_digits (w k acc : Nat) (rest : Text) :
    readDigits w acc (digits w k ++ rest) = some (acc * 10 ^ w + k % 10 ^ w, rest) := by
  induction w generalizing acc with
  | zero => simp [digits, readDigits, Nat.mod_one]
  | succ w ih =>
    rw [digits, cons_append, readDigits, Decimal.digitValue_digit (Nat.mod_lt _ (by decide)), Option.bind_some,
      ih, Nat.mod_pow_succ]
    congr 2
    ring

/-- A field of a layout: what stands in front of it, its digits, and which field it is. -/
structure Field where
  front : Text
  width : Nat
  get : Civil → Nat
  set : Civil → Nat → Civil

def timeFields (front : Text) : List Field :=
  [⟨front, 2, Civil.hour, fun c k => { c with hour := k }⟩,
    ⟨lit ":", 2, Civil.minute, fun c k => { c with minute := k }⟩]

def secondField : Field := ⟨lit ":", 2, Civil.second, fun c k => { c with second := k }⟩

def dateFields : List Field :=
  [⟨[], 4, fun c => c.year.toNat, fun c k => { c with year := k }⟩,
    ⟨lit "-", 2, Civil.month, fun c k => { c with month := k }⟩,
    ⟨lit "-", 2, Civil.day, fun c k => { c with day := k }⟩]

/-- The fields of the layouts, without the fraction of a second. -/
def layoutFields : String → List Field
  | "15:04" => timeFields []
  | "15:04:05" | "15:04:05.999999999" => timeFields [] ++ [secondField]
  | "2006-01-02" => dateFields
  | "2006-01-02 15:04:05" => dateFields ++ timeFields (lit " ") ++ [secondField]
  | _ => []

def writeFields (fs : List Field) (c : Civil) : Text := fs.flatMap fun f => f.front ++ digits f.width (f.get c)

def readFields : List Field → Civil → Text → Option (Civil × Text)
  | [], c, text => some (c, text)
  | f :: fs, c, text =>
    if text.take f.front.length = f.front then
      (readDigits f.width 0 (text.drop f.front.length)).bind fun x => readFields fs (f.set c x.1) x.2
    else none

theorem readFields_writeFields {fs : List Field} {c : Civil} (hc : ∀ f ∈ fs, f.get c < 10 ^ f.width)
    (c₀ : Civil) (rest : Text) : readFields fs c₀ (writeFields fs c ++ rest) =
      some (fs.foldl (fun c₀ f => f.set c₀ (f.get c)) c₀, rest) := by
  induction fs generalizing c₀ with
  | nil => rfl
  | cons f fs ih =>
    have hwrite : writeFields (f :: fs) c ++ rest =
        f.front ++ (digits f.width (f.get c) ++ (writeFields fs c ++ rest)) := by
      simp [writeFields]
    rw [hwrite, readFields, take_left, if_pos rfl, drop_left, readDigits_digits, Option.bind_some, Nat.zero_mul,
      Nat.zero_add, Nat.mod_eq_of_lt (hc f (mem_cons_self ..))]
    exact ih (fun f' hf' => hc f' (mem_cons_of_mem _ hf')) _

/-- Without the zeros at the end. -/
def trim : Text → Text
  | [] => []
  | b :: text => if trim text = [] ∧ b = 48 then [] else b :: trim text

theorem trim_append (text : Text) : trim text ++ replicate (text.length - (trim text).length) 48 = text := by
  induction text with
  | nil => rfl
  | cons b text ih =>
    rw [trim]
    split
    · next h =>
      rw [h.1] at ih
      rw [h.2, ← ih]
      simp [replicate_succ]
    · simpa using ih

/-- The fraction of a second, if there is one. -/
def fraction (k : Nat) : Text := if k = 0 then [] else 46 :: trim (digits 9 k)

def readFraction : Text → Option Nat
  | [] => some 0
  | b :: text =>
    if b = 46 then (readDigits 9 0 (text ++ replicate (9 - text.length) 48)).map Prod.fst else none

theorem readFraction_fraction {k : Nat} (hk : k < 10 ^ 9) : readFraction (fraction k) = some k := by
  have htrim : trim (digits 9 k) ++ replicate (9 - (trim (digits 9 k)).length) 48 = digits 9 k ++ [] :=
    (trim_append (digits 9 k)).trans (append_nil _).symm
  unfold fraction
  split
  · next h => rw [readFraction, h]
  rw [readFraction, if_pos rfl, htrim, readDigits_digits, Nat.zero_mul, Nat.zero_add, Nat.mod_eq_of_lt hk]
  rfl

instance (c : Civil) : Decidable c.Valid :=
  decidable_of_iff ((((1 ≤ c.month ∧ c.month ≤ 12) ∧ 1 ≤ c.day ∧
    daysBeforeMonth (leapDay c.year) c.month + c.day ≤
      daysBeforeMonth (leapDay c.year) (c.month + 1)) ∧ c.hour < 24) ∧ c.minute < 60 ∧ c.second < 60 ∧
      c.nanosecond < 1000000000)
    ⟨fun ⟨⟨⟨hm, hd, hl⟩, hh⟩, hmin, hs, hn⟩ => ⟨⟨hm, hd, hl⟩, hh, hmin, hs, hn⟩,
      fun ⟨⟨hm, hd, hl⟩, hh, hmin, hs, hn⟩ => ⟨⟨⟨hm, hd, hl⟩, hh⟩, hmin, hs, hn⟩⟩

/-- What follows the fields: a fraction behind seconds only. -/
def readRest (layout : String) (rest : Text) : Option Nat :=
  if layout ∈ ["15:04", "2006-01-02"] ∧ rest ≠ [] then none else readFraction rest

/-- `time`, for these layouts and for texts in full width. -/
def goTime : Go :=
  { JsonText.go with
    timeFormat := fun layout n =>
      writeFields (layoutFields layout) (civilOf n) ++
        if layout = "15:04:05.999999999" then fraction (civilOf n).nanosecond else []
    timeParse := fun layout text =>
      (readFields (layoutFields layout) ⟨0, 1, 1, 0, 0, 0, 0⟩ text).bind fun x =>
        (readRest layout x.2).bind fun k =>
          if layoutFields layout ≠ [] ∧ Civil.Valid { x.1 with nanosecond := k } then
            some { x.1 with nanosecond := k }
          else none
    timeDate := Civil.unixNanos }

theorem get_lt {c : Civil} (hc : c.Valid) (hyear : c.year < 10000) :
    ∀ f ∈ layoutFields layout, f.get c < 10 ^ f.width := by
  obtain ⟨⟨hmonth, -, hlast⟩, hhour, hminute, hsecond, -⟩ := hc
  have hday : c.day ≤ 31 := by
    have hleap : leapDay c.year ≤ 1 := by
      unfold leapDay
      split <;> decide
    unfold Civil.date daysBeforeMonth at hlast
    dsimp only at hlast
    split at hlast <;> split at hlast <;> omega
  have hm : c.month ≤ 12 := hmonth.2
  unfold layoutFields
  split <;> simp [timeFields, dateFields, secondField] <;> omega

theorem shown_valid {c} (hc : c.Valid) : (shown layout c).Valid := by
  have hzero : (⟨0, 1, 1⟩ : Date).Valid := ⟨by decide, by decide, by decide⟩
  obtain ⟨hdate, hhour, hminute, hsecond, hnano⟩ := hc
  unfold shown
  split_ifs
  · exact ⟨hzero, hhour, hminute, Nat.zero_lt_succ _, Nat.zero_lt_succ _⟩
  · exact ⟨hdate, Nat.zero_lt_succ _, Nat.zero_lt_succ _, Nat.zero_lt_succ _, Nat.zero_lt_succ _⟩
  · exact ⟨hdate, hhour, hminute, hsecond, Nat.zero_lt_succ _⟩
  · exact ⟨hzero, hhour, hminute, hsecond, hnano⟩

/-- The fields of a layout, read behind the first moment of the year 0, are what it shows. -/
theorem fields_shown (hlayout : layout ∈ timeLayouts) {c : Civil} (hc : c.Valid) (hyear : 0 ≤ c.year) :
    layoutFields layout ≠ [] ∧
      ∃ k, readRest layout (if layout = "15:04:05.999999999" then fraction c.nanosecond else []) = some k ∧
        { (layoutFields layout).foldl (fun c₀ f => f.set c₀ (f.get c)) ⟨0, 1, 1, 0, 0, 0, 0⟩ with
          nanosecond := k } = shown layout c := by
  have hfraction := readFraction_fraction hc.nanosecond
  obtain ⟨year, month, day, hour, minute, second, nanosecond⟩ := c
  obtain ⟨year, rfl⟩ := Int.eq_ofNat_of_zero_le hyear
  simp only [timeLayouts, mem_cons, not_mem_nil, or_false] at hlayout
  rcases hlayout with rfl | rfl | rfl | rfl
  · refine ⟨cons_ne_nil _ _, nanosecond, ?_, rfl⟩
    rw [if_pos rfl, readRest, if_neg (by simp)]
    exact hfraction
  · exact ⟨cons_ne_nil _ _, 0, rfl, rfl⟩
  · exact ⟨cons_ne_nil _ _, 0, rfl, rfl⟩
  · exact ⟨cons_ne_nil _ _, 0, rfl, rfl⟩

theorem exactTime_goTime : goTime.ExactTime where
  parse_format layout hlayout n hpos hlt := by
    have hc := valid_civilOf n
    have hyear : 0 ≤ (civilOf n).year ∧ (civilOf n).year < 10000 := by
      have hspec : daysBeforeYear (civilOf n).year ≤ n / dayNanos + unixDay ∧
          n / dayNanos + unixDay < daysBeforeYear ((civilOf n).year + 1) := yearOf_spec _
      unfold daysBeforeYear dayNanos unixDay at hspec
      omega
    obtain ⟨hfields, k, hrest, hshown⟩ := fields_shown layout hlayout hc hyear.1
    simp only [goTime]
    rw [readFields_writeFields (get_lt layout hc hyear.2), Option.bind_some, hrest, Option.bind_some, hshown]
    exact if_pos ⟨hfields, shown_valid layout hc⟩
  parse_valid layout value c h := by
    obtain ⟨x, -, h⟩ := Option.bind_eq_some_iff.1 h
    obtain ⟨k, -, h⟩ := Option.bind_eq_some_iff.1 h
    split at h
    · next hv =>
      cases h
      exact hv.2
    · cases h
  date c _ := rfl

/-- A symbol of four bytes. -/
def timed (dataType : String) : Info :=
  { key := "t", name := "t", dataType := dataType, offset := 0, length := 4 }

/-- A TIME of nine and a half hours and half a second comes back. -/
theorem unchanged_time : Unchanged goTime (fun _ => none) (.mk (timed "TIME") []) (encode 4 34200500) := by
  have htype : Scalar.ofName (timed "TIME").dataType = some .time := rfl
  refine (unchanged_iff exactTime_goTime htype rfl (length_encode 4 _) trivial).2 ?_
  show decode (encode 4 34200500) < 86400000
  decide

/-- A TIME of a day comes back as nothing, and a TOD of half past nine and half a second as half past nine. -/
theorem day_and_seconds_lost :
    ¬Unchanged goTime (fun _ => none) (.mk (timed "TIME") []) (encode 4 86400000) ∧
      ¬Unchanged goTime (fun _ => none) (.mk (timed "TOD") []) (encode 4 34200500) := by
  have htime : Scalar.ofName (timed "TIME").dataType = some .time := rfl
  have htod : Scalar.ofName (timed "TOD").dataType = some .tod := rfl
  constructor
  · rw [unchanged_leaf htime rfl (length_encode 4 _),
      exists_text_iff (length_encode 4 _) rfl (write_time exactTime_goTime (length_encode 4 _)) (Nat.mod_le _ _)
        (by decide)]
    decide
  · rw [unchanged_leaf htod rfl (length_encode 4 _),
      exists_text_iff (length_encode 4 _) rfl (write_tod exactTime_goTime (length_encode 4 _)) (by decide)
        (by decide)]
    decide

/-! ## Writing a date -/

/-- The moment is one that four bytes of seconds hold. -/
def Civil.InRange (c : Civil) : Prop := 0 ≤ c.unixSeconds ∧ c.unixSeconds < 2 ^ 32

/-- The same date, and for a DT the same time of day. -/
def Scalar.SameMoment (c c' : Civil) : Scalar → Prop
  | .date => c'.date = c.date
  | _ => c' = c

/-- **A date that is accepted is stored as itself**, and one out of the range of the four bytes is refused.
    Which date a text stands for is what the layout makes of it, before it is written and after it was read
    back. -/
structure StoredAsItself (go : Go) (datatypes : DataTypes) (info : Info) (scalar : Scalar)
    (value : Text) : Prop where
  same : ∀ bytes, (Symbol.mk info []).writeToNode go datatypes value = .ok bytes →
    ∃ c s c', go.timeParse scalar.dateLayout value = some c ∧
      (Symbol.mk info []).parse go datatypes bytes 0 = .ok s ∧
      go.timeParse scalar.dateLayout s.value = some c' ∧ scalar.SameMoment c c'
  refused : ∀ c, go.timeParse scalar.dateLayout value = some c → ¬ (shown scalar.dateLayout c).InRange →
    ∃ e, (Symbol.mk info []).writeToNode go datatypes value = .error e

section Stored

variable {go : Go} {datatypes : DataTypes} {info : Info} {scalar : Scalar} {value : Text} {c : Civil}

/-- Any other text is refused. -/
theorem parse_of_write (hdate : scalar = .date ∨ scalar = .dt) {bytes}
    (hwrite : scalar.write go 4 value = .ok bytes) : ∃ c, go.timeParse scalar.dateLayout value = some c := by
  cases hparse : go.timeParse scalar.dateLayout value with
  | some c => exact ⟨c, rfl⟩
  | none =>
    rcases hdate with rfl | rfl
    all_goals
      simp only [Scalar.dateLayout] at hparse
      rw [Scalar.write, civilNanos, findSome?_cons, hparse] at hwrite
      cases hwrite

variable (datatypes) in
theorem read_back (hexact : go.ExactTime) (hdate : scalar = .date ∨ scalar = .dt)
    (htype : Scalar.ofName info.dataType = some scalar) (hlen : info.length = 4) (hc : c.Valid)
    (hrange : (shown scalar.dateLayout c).InRange) : ∃ s, (Symbol.mk info []).parse go datatypes
        (unitsBytes 1000000000 (shown scalar.dateLayout c).unixNanos) 0 = .ok s ∧
      go.timeParse scalar.dateLayout s.value = some (shown scalar.dateLayout c) := by
  obtain ⟨hvalid, hseconds, hagain⟩ := shown_date hdate hc
  obtain ⟨hpos, hlt⟩ := hrange
  -- the bytes are those of the seconds, and the seconds those of the bytes
  have hbytes : decode (unitsBytes 1000000000 (shown scalar.dateLayout c).unixNanos) =
      (shown scalar.dateLayout c).unixSeconds.toNat := by
    rw [unitsBytes, hseconds, Int.mul_tdiv_cancel _ (by decide), Int.emod_eq_of_lt hpos hlt]
    apply decode_encode_of_lt
    show _ < 2 ^ 32
    omega
  have hmoment : (decode (unitsBytes 1000000000 (shown scalar.dateLayout c).unixNanos) : Int) * 1000000000 =
      (shown scalar.dateLayout c).unixNanos := by
    rw [hbytes, Int.toNat_of_nonneg hpos, hseconds]
  have htext : go.timeParse scalar.dateLayout (Scalar.timeText go scalar.dateLayout 1000000000
      (unitsBytes 1000000000 (shown scalar.dateLayout c).unixNanos)) = some (shown scalar.dateLayout c) := by
    rw [Scalar.timeText, hmoment, hexact.parse_format _ (dateLayout_mem hdate) _ (by omega) (by omega),
      civilOf_unixNanos hvalid, hagain]
  refine ⟨.mk (info.updateValue (Scalar.timeText go scalar.dateLayout 1000000000
    (unitsBytes 1000000000 (shown scalar.dateLayout c).unixNanos))) [], ?_, htext⟩
  rcases hdate with rfl | rfl
  · exact parse_timed htype hlen (length_encode 4 _) rfl
  · exact parse_timed htype hlen (length_encode 4 _) rfl

/-- **A date is stored as itself, or refused, exactly when it is in the range of the four bytes**, and has no
    fraction of a second. -/
theorem storedAsItself_iff (hexact : go.ExactTime) (hdate : scalar = .date ∨ scalar = .dt)
    (htype : Scalar.ofName info.dataType = some scalar) (hlen : info.length = 4) :
    StoredAsItself go datatypes info scalar value ↔
      ∀ c, go.timeParse scalar.dateLayout value = some c →
        (shown scalar.dateLayout c).InRange ∧ (scalar = .dt → c.nanosecond = 0) := by
  have hnode : ∀ text, (Symbol.mk info []).writeToNode go datatypes text = scalar.write go 4 text :=
    fun text => writeToNode_leaf htype hlen info.value text
  constructor
  · intro hstored c hc
    have hwrite := write_of_parse hexact hdate hc
    have hrange : (shown scalar.dateLayout c).InRange := by
      by_contra hout
      obtain ⟨e, he⟩ := hstored.refused c hc hout
      rw [hnode, hwrite] at he
      cases he
    refine ⟨hrange, fun hdt => ?_⟩
    -- what is read back has no fraction
    rw [← hnode] at hwrite
    obtain ⟨c₀, s, c', hc₀, hs, hc', hsame⟩ := hstored.same _ hwrite
    cases hc.symm.trans hc₀
    obtain ⟨s', hs', hback⟩ := read_back datatypes hexact hdate htype hlen
      (hexact.parse_valid _ _ _ hc) hrange
    cases hs.symm.trans hs'
    cases hc'.symm.trans hback
    subst hdt
    have hfields : shown (Scalar.dateLayout .dt) c = c := hsame
    rw [← hfields]
    rfl
  · intro hin
    refine ⟨?_, ?_⟩
    · intro bytes hwrite
      rw [hnode] at hwrite
      obtain ⟨c, hc⟩ := parse_of_write hdate hwrite
      obtain ⟨hrange, hfraction⟩ := hin c hc
      rw [write_of_parse hexact hdate hc] at hwrite
      cases hwrite
      obtain ⟨s, hs, hback⟩ := read_back datatypes hexact hdate htype hlen
        (hexact.parse_valid _ _ _ hc) hrange
      refine ⟨c, s, _, hc, hs, hback, ?_⟩
      rcases hdate with rfl | rfl
      · rfl
      · show ({ c with nanosecond := 0 } : Civil) = c
        rw [← hfraction rfl]
    · intro c hc hout
      exact absurd (hin c hc).1 hout

end Stored

/-- A leap day is stored as itself. -/
theorem storedAsItself_leap_day :
    StoredAsItself goTime (fun _ => none) (timed "DATE") .date (lit "2020-02-29") := by
  refine (storedAsItself_iff exactTime_goTime (.inl rfl) rfl rfl).2 ?_
  intro c hc
  have hday : goTime.timeParse (Scalar.dateLayout .date) (lit "2020-02-29") =
    some ⟨2020, 2, 29, 0, 0, 0, 0⟩ := by
    decide
  cases hday.symm.trans hc
  exact ⟨⟨by decide, by decide⟩, fun h => nomatch h⟩

/-- The last day of 1969 is accepted, and reads back as a day in February 2106. -/
theorem day_before_1970_wraps :
    (∃ bytes s,
      (Symbol.mk (timed "DATE") []).writeToNode goTime (fun _ => none) (lit "1969-12-31") = .ok bytes ∧
      (Symbol.mk (timed "DATE") []).parse goTime (fun _ => none) bytes 0 = .ok s ∧ s.value = lit "2106-02-06") ∧
    ¬StoredAsItself goTime (fun _ => none) (timed "DATE") .date (lit "1969-12-31") := by
  have htype : Scalar.ofName (timed "DATE").dataType = some .date := rfl
  have hday : goTime.timeParse (Scalar.dateLayout .date) (lit "1969-12-31") =
    some ⟨1969, 12, 31, 0, 0, 0, 0⟩ := by
    decide
  have hwrite := write_of_parse exactTime_goTime (.inl rfl) hday
  have hbytes : unitsBytes 1000000000 (shown (Scalar.dateLayout .date) ⟨1969, 12, 31, 0, 0, 0, 0⟩).unixNanos =
      encode 4 4294880896 := by
    decide
  rw [hbytes] at hwrite
  have hnode : (Symbol.mk (timed "DATE") []).writeToNode goTime (fun _ => none) (lit "1969-12-31") = .ok _ :=
    (writeToNode_leaf htype rfl [] _).trans hwrite
  refine ⟨⟨_, _, hnode, parse_timed htype rfl (length_encode 4 _) rfl, by decide⟩, fun h => ?_⟩
  obtain ⟨e, he⟩ := h.refused _ hday fun hrange => absurd hrange.1 (by decide)
  rw [hnode] at he
  cases he

end GoAds.Codec
