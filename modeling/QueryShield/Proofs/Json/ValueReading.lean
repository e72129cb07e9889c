import Mathlib
import QueryShield.Proofs.Json.ReadSteps
import QueryShield.Proofs.Json.DoubleText
import QueryShield.Data.Datum

/-!
# Reading scalars and data back

`Outcome x u o r` says what reading the text `u` before `r` comes to: the value `v` when
`o = some v`, a failure when `o = none`.  Outcomes compose like the readings do
(`Reads.outcome_bind`, `Outcome.bind`), and pass through the wrapper with which the typed
readers catch a fault and throw it again with its place (`Outcome.attempt_bind`).

`readValue` reads the compact text of a scalar back: `null`, a boolean, a string, and an
integer from `-2^63` to `2^64 - 1` (`reads_readValue_int`).  A double comes back as the reader
makes it from its text, `textReading?`, or the reading fails where that overflows
(`outcome_readValue_float`); a double that is not finite was written as `null` and comes back
as `null`.

For data this is `Datum.throughText?`: what a datum is once written and read back, or nothing
when its double overflows on the way.  `Datum.outcome_read_compact` says that `Datum.read`
comes to exactly that on the text of every datum whose integer fits 64 bits.
-/

namespace QueryShield
namespace Json

open Binary64

variable {α β : Type}

/-! ## What a reading comes to -/

/-- What reading `u` before `r` comes to: `some v` when it reads `v` and stops before `r`,
`none` when it fails. -/
def Outcome (x : Reading α) (u : List Char) : Option α → List Char → Prop
  | some v, r => Reads x u v r
  | none, r => FailsOn x (u ++ r)

@[simp] theorem outcome_some {x : Reading α} {u r : List Char} {v : α} :
    Outcome x u (some v) r ↔ Reads x u v r := Iff.rfl

@[simp] theorem outcome_none {x : Reading α} {u r : List Char} :
    Outcome x u none r ↔ FailsOn x (u ++ r) := Iff.rfl

/-- A step that reads `u` and hands over to a failing reading fails. -/
theorem Reads.failsOn_bind {x : Reading α} {f : α → Reading β} {u t : List Char} {a : α}
    (hx : Reads x u a t) (hf : FailsOn (f a) t) : FailsOn (x >>= f) (u ++ t) :=
  hx.continues_bind.failsOn hf

/-- A step that reads `u` hands over to the next. -/
theorem Reads.outcome_bind {x : Reading α} {f : α → Reading β} {u w r : List Char} {a : α}
    {o : Option β} (hx : Reads x u a (w ++ r)) (hf : Outcome (f a) w o r) :
    Outcome (x >>= f) (u ++ w) o r := by
  cases o with
  | some v => exact Reads.bind hx hf
  | none =>
    have h := hx.failsOn_bind hf
    rwa [← List.append_assoc] at h

/-- A step that hands over to another comes to what the other comes to. -/
theorem Continues.outcome {x y : Reading α} {u w r : List Char} {o : Option α}
    (h : Continues x y u (w ++ r)) (hy : Outcome y w o r) : Outcome x (u ++ w) o r := by
  cases o with
  | some v => exact h.reads hy
  | none =>
    have h' := h.failsOn hy
    rwa [← List.append_assoc] at h'

/-- Two readings in a row, the first of which may fail. -/
theorem Outcome.bind {x : Reading α} {f : α → Reading β} {u w r : List Char} {o : Option α}
    {g : α → Option β} (hx : Outcome x u o (w ++ r)) (hf : ∀ a, Outcome (f a) w (g a) r) :
    Outcome (x >>= f) (u ++ w) (o.bind g) r := by
  cases o with
  | some a => exact Reads.outcome_bind hx (hf a)
  | none =>
    have h := FailsOn.bind (f := f) hx
    rwa [← List.append_assoc] at h

/-- A reading followed by a pure step. -/
theorem Outcome.bind_pure {x : Reading α} {u r : List Char} {o : Option α} (g : α → β)
    (h : Outcome x u o r) : Outcome (x >>= fun a => pure (g a)) u (o.map g) r := by
  have h' := Outcome.bind (w := []) (f := fun a => pure (g a)) (g := fun a => some (g a))
    (by simpa using h) (fun a => Reads.of_pure (g a) r)
  simpa [Option.map_eq_bind] using h'

/-- A reading followed by a pure step, when the reading succeeds. -/
theorem Reads.bind_pure {x : Reading α} {u r : List Char} {a : α} (g : α → β)
    (h : Reads x u a r) : Reads (x >>= fun a => pure (g a)) u (g a) r := by
  rw [← List.append_nil u]
  exact Reads.bind h (Reads.of_pure _ r)

/-- A reading with its value mapped. -/
theorem Outcome.map {x : Reading α} {u r : List Char} {o : Option α} (f : α → β)
    (h : Outcome x u o r) : Outcome (f <$> x) u (o.map f) r := by
  cases o with
  | some a => exact Reads.map f h
  | none =>
    intro l c
    obtain ⟨e, s, he⟩ := h l c
    exact ⟨e, s, by show EStateM.map f x _ = _; simp only [EStateM.map, he]⟩

/-- A fault given its place and thrown again fails. -/
theorem failsOn_fix_throw (e : Fault) (t : List Char) :
    FailsOn (fix e >>= fun f => throw f : Reading α) t := by
  intro l c
  rcases e with ⟨m, _ | p⟩
  · exact ⟨⟨m, some (l, c)⟩, _, rfl⟩
  · exact ⟨⟨m, some p⟩, _, rfl⟩

/-- A reading that catches the failure of `x` and fails on every caught fault fails. -/
theorem FailsOn.attempt_bind {x : Reading α} {f : Except Fault α → Reading β} {t : List Char}
    (hx : FailsOn x t) (hf : ∀ e t', FailsOn (f (.error e)) t') : FailsOn (attempt x >>= f) t := by
  intro l c
  obtain ⟨e, s, he⟩ := hx l c
  obtain ⟨e', s', he'⟩ := hf e s.rest s.line s.column
  refine ⟨e', s', ?_⟩
  show EStateM.bind (attempt x) f _ = _
  simp only [EStateM.bind, Json.attempt, he]
  exact he'

/-- A reading that catches whatever `x` comes to and then fails in every case fails. -/
theorem failsOn_attempt_bind {x : Reading α} {f : Except Fault α → Reading β} {t : List Char}
    (hf : ∀ a t', FailsOn (f a) t') : FailsOn (attempt x >>= f) t := by
  intro l c
  show ∃ e s, EStateM.bind (attempt x) f _ = _
  cases h : x ⟨t, l, c⟩ with
  | ok a s =>
    obtain ⟨e', s', he⟩ := hf (.ok a) s.rest s.line s.column
    exact ⟨e', s', by simp only [EStateM.bind, Json.attempt, h]; exact he⟩
  | error e s =>
    obtain ⟨e', s', he⟩ := hf (.error e) s.rest s.line s.column
    exact ⟨e', s', by simp only [EStateM.bind, Json.attempt, h]; exact he⟩

/-- A reading wrapped the way the typed readers wrap one value: run it, and throw a fault of
it again with its place.  The wrapper comes to what the reading comes to. -/
theorem Outcome.attempt_bind {x : Reading α} {f : Except Fault α → Reading α} {u r : List Char}
    {o : Option α} (h : Outcome x u o r) (hok : ∀ v, f (.ok v) = pure v)
    (herr : ∀ e t, FailsOn (f (.error e)) t) : Outcome (attempt x >>= f) u o r := by
  cases o with
  | some v =>
    rw [← List.append_nil u]
    exact Reads.bind (Reads.attempt h) (by rw [hok]; exact Reads.of_pure v r)
  | none => exact FailsOn.attempt_bind h herr

/-! ## Numbers without a point -/

theorem leadDigits_toDigits (n : Nat) : LeadDigits (Nat.toDigits 10 n) := by
  refine ⟨isDigits_toDigits n, ?_⟩
  rcases Nat.eq_zero_or_pos n with rfl | hpos
  · exact .inl rfl
  · exact .inr (toDigits_head_ne_zero hpos)

/-- The digits of a number up to `2^64 - 1`, without a sign, are read as that number. -/
theorem reads_readNumber_unsigned {n : Nat} (hn : n ≤ maxUnsigned) {r : List Char}
    (hr : EndsNumber r) : Reads (readNumber true) (Nat.toDigits 10 n) (.unsigned n) r := by
  have hval : Nat.ofDigitChars 10 (Nat.toDigits 10 n) 0 = n := Nat.ofDigitChars_ten_toDigits
  have h := continues_readNumber true (leadDigits_toDigits n) hr.noDigitAhead
    (by rw [hval]; exact hn)
  rw [hval] at h
  simpa using h.reads (w := []) (reads_numberEnd_unsigned n hr)

/-- The digits of a number from `1` to `2^63`, after a minus sign, are read as its negative. -/
theorem reads_readNumber_signed {n : Nat} (hpos : 0 < n) (hn : n ≤ Nat.pow 2 63) {r : List Char}
    (hr : EndsNumber r) : Reads (readNumber false) (Nat.toDigits 10 n) (.signed (-(n : Int))) r := by
  have hval : Nat.ofDigitChars 10 (Nat.toDigits 10 n) 0 = n := Nat.ofDigitChars_ten_toDigits
  have hmax : n ≤ maxUnsigned := le_trans hn (by unfold maxUnsigned; decide)
  have h := continues_readNumber false (leadDigits_toDigits n) hr.noDigitAhead
    (by rw [hval]; exact hmax)
  rw [hval] at h
  simpa using h.reads (w := []) (reads_numberEnd_signed hpos hn hr)

/-! ## Scalars -/

theorem reads_readValue_null (depth : Nat) (r : List Char) :
    Reads (readValue (depth + 1)) (compact .null).toList .null r := by
  unfold readValue
  refine Reads.bind_eq (w := []) (Reads.attempt ?_) (Reads.of_pure _ _) (List.append_nil _).symm
  refine Reads.bind_eq (u := []) (reads_blanks (noLeadingBlank_cons (by decide) _)) ?_ rfl
  exact Reads.bind_eq (u := ['n']) (reads_eat 'n' _)
    (Reads.bind_eq (reads_ident _ _) (Reads.of_pure _ _) rfl) (by decide)

/-- A value whose text starts with a digit is a number without a sign. -/
theorem outcome_readValue_digit (depth : Nat) {c : Char} (hc : c.isDigit = true)
    {rest r : List Char} {o : Option JsonNumber} (h : Outcome (readNumber true) (c :: rest) o r) :
    Outcome (readValue (depth + 1)) (c :: rest) (o.map Json.number) r := by
  have hb : ¬ IsBlankChar c := by
    have := Char.isDigit_iff_toNat.1 hc
    unfold IsBlankChar
    rintro (rfl | rfl | rfl | rfl) <;> simp at this
  unfold readValue
  refine Outcome.attempt_bind ?_ (fun _ => rfl) (fun e t => failsOn_fix_throw e t)
  refine (reads_blanks (noLeadingBlank_cons hb _)).continues_bind.outcome (u := []) ?_
  simp only [List.head?_cons]
  split
  case h_9 d _ _ _ _ _ _ _ heq =>
    obtain rfl : c = d := Option.some.inj heq
    simp only [isDigit_eq, hc, if_true]
    exact Outcome.bind_pure _ h
  -- the other branches are for characters that are not digits
  all_goals
    rename_i heq
    cases heq <;> simp at hc

/-- A value whose text starts with a minus sign is a number with a sign. -/
theorem outcome_readValue_minus (depth : Nat) {u r : List Char} {o : Option JsonNumber}
    (h : Outcome (readNumber false) u o r) :
    Outcome (readValue (depth + 1)) ('-' :: u) (o.map Json.number) r := by
  unfold readValue
  refine Outcome.attempt_bind ?_ (fun _ => rfl) (fun e t => failsOn_fix_throw e t)
  refine (reads_blanks (noLeadingBlank_cons (by decide) _)).continues_bind.outcome (u := []) ?_
  exact Reads.outcome_bind (u := ['-']) (reads_eat '-' _) (Outcome.bind_pure _ h)

theorem reads_readValue_bool (depth : Nat) (b : Bool) (r : List Char) :
    Reads (readValue (depth + 1)) (compact (.bool b)).toList (.bool b) r := by
  unfold readValue
  refine Reads.bind_eq (w := []) (Reads.attempt ?_) (Reads.of_pure _ _) (List.append_nil _).symm
  cases b
  · refine Reads.bind_eq (u := []) (reads_blanks (noLeadingBlank_cons (by decide) _)) ?_ rfl
    exact Reads.bind_eq (u := ['f']) (reads_eat 'f' _)
      (Reads.bind_eq (reads_ident _ _) (Reads.of_pure _ _) rfl) (by decide)
  · refine Reads.bind_eq (u := []) (reads_blanks (noLeadingBlank_cons (by decide) _)) ?_ rfl
    exact Reads.bind_eq (u := ['t']) (reads_eat 't' _)
      (Reads.bind_eq (reads_ident _ _) (Reads.of_pure _ _) rfl) (by decide)

theorem reads_readValue_string (depth : Nat) (s : String) (r : List Char) :
    Reads (readValue (depth + 1)) (compact (.string s)).toList (.string s) r := by
  unfold readValue
  refine Reads.bind_eq (w := []) (Reads.attempt ?_) (Reads.of_pure _ _) (List.append_nil _).symm
  rw [compact, quote_toList, List.cons_append, ← List.nil_append ('"' :: _)]
  refine Reads.bind (reads_blanks (noLeadingBlank_cons (by decide) _)) ?_
  exact Reads.bind (u := ['"']) (reads_eat '"' _) (Reads.bind_pure Json.string (reads_readString s r))

theorem int_ofNat (m : Nat) : Json.int (Int.ofNat m) = .number (.unsigned m) := by
  simp [Json.int, JsonNumber.ofInt]

theorem int_negSucc (k : Nat) : Json.int (Int.negSucc k) = .number (.signed (Int.negSucc k)) := by
  simp [Json.int, JsonNumber.ofInt, Int.negSucc_lt_zero]

/-- An integer from `-2^63` to `2^64 - 1` is read back from its text. -/
theorem reads_readValue_int (depth : Nat) {n : Int} (hlo : -(Nat.pow 2 63 : Int) ≤ n)
    (hhi : n ≤ maxUnsigned) {r : List Char} (hr : EndsNumber r) :
    Reads (readValue (depth + 1)) (compact (Json.int n)).toList (Json.int n) r := by
  rcases n with m | k
  · obtain ⟨c, rest, hcr⟩ := List.exists_cons_of_ne_nil (Nat.toDigits_ne_nil (n := m) (b := 10))
    have hc := isDigits_toDigits m c (by simp [hcr])
    have h := reads_readNumber_unsigned (n := m) (Int.ofNat_le.mp hhi) hr
    rw [hcr] at h
    rw [int_ofNat, compact, JsonNumber.text_unsigned_toList, hcr]
    exact outcome_readValue_digit depth hc (o := some _) h
  · have h := reads_readNumber_signed (Nat.succ_pos k) (by omega) hr
    rw [show -(((k + 1 : Nat) : Int)) = Int.negSucc k from rfl] at h
    rw [int_negSucc, compact, JsonNumber.text_negSucc_toList]
    exact outcome_readValue_minus depth (o := some _) h

/-- The text of a finite double comes back as the double the reader makes of it, or the
reading fails where that overflows. -/
theorem outcome_readValue_float (depth : Nat) {x : Binary64} (hfin : x.isFinite = true)
    {r : List Char} (hr : EndsNumber r) :
    Outcome (readValue (depth + 1)) (compact (Json.float x)).toList
      (x.textReading?.map Json.float) r := by
  obtain ⟨c, body, htext, hc, hcont⟩ := continues_readNumber_exchangeText hfin hr
  have hnum : Outcome (numberOrOverflow x.textReading? >>= fun y => pure (JsonNumber.float y)) []
      (x.textReading?.map JsonNumber.float) r := by
    cases x.textReading? with
    | some y => exact Reads.of_pure _ _
    | none => exact FailsOn.bind (failsOn_failHere _ _)
  have hread := hcont.outcome (w := []) hnum
  rw [List.append_nil] at hread
  have hmap : (x.textReading?.map JsonNumber.float).map Json.number = x.textReading?.map Json.float :=
    Option.map_map _ _ _
  rw [← hmap, show compact (Json.float x) = x.exchangeText by simp [Json.float, compact, JsonNumber.text, hfin],
    htext]
  cases hneg : x.negative
  · rw [hneg] at hread
    exact outcome_readValue_digit depth hc hread
  · rw [hneg] at hread
    exact outcome_readValue_minus depth hread

end Json

/-! ## Data -/

namespace Datum

open Json

/-- A datum whose integer fits 64 signed bits, as every datum read from a database does. -/
def Fits : Datum → Prop
  | .int n => -(Nat.pow 2 63 : Int) ≤ n ∧ n < Nat.pow 2 63
  | _ => True

/-- What a datum is once written as JSON and read back: a finite double is the double the
reader makes of its text, a double that is not finite is null, anything else is itself;
`none` when the text of a double overflows. -/
def throughText? : Datum → Option Datum
  | .float x => if x.isFinite then x.textReading?.map .float else some .null
  | d => some d

/-- `read` takes the value `readValue` reads, and refuses what is no datum. -/
theorem outcome_read {depth : Nat} {u r : List Char} {o : Option Json}
    (h : Outcome (readValue depth) u o r) :
    Outcome (read depth) u (o.bind fun v => (ofJson? v).toOption) r := by
  unfold read
  rw [← List.append_nil u]
  refine Outcome.bind (by simpa using h) fun v => ?_
  cases hv : ofJson? v with
  | ok d => exact Reads.of_pure d r
  | error m => exact failsOn_throw _ _

theorem ofJson?_int {n : Int} (hlo : -(Nat.pow 2 63 : Int) ≤ n) (hhi : n < Nat.pow 2 63) :
    ofJson? (Json.int n) = .ok (.int n) := by
  rcases n with m | k
  · have hm : m < Nat.pow 2 63 := Int.ofNat_lt.mp hhi
    rw [show Nat.pow 2 63 = 9223372036854775808 from rfl] at hm
    rw [int_ofNat]
    simp [ofJson?, hm]
  · rw [int_negSucc]
    rfl

/-- Every datum whose integer fits 64 signed bits is read back from its JSON text as
`throughText?` says. -/
theorem outcome_read_compact (depth : Nat) {d : Datum} (hd : d.Fits) {r : List Char}
    (hr : Closes r) : Outcome (read (depth + 1)) (compact d.toJson).toList d.throughText? r := by
  cases d with
  | null => exact outcome_read (o := some _) (reads_readValue_null depth r)
  | bool b => exact outcome_read (o := some _) (reads_readValue_bool depth b r)
  | int n =>
    obtain ⟨hlo, hhi⟩ := hd
    have h63 : Nat.pow 2 63 ≤ maxUnsigned := by unfold maxUnsigned; decide
    have hmax : n ≤ maxUnsigned := by omega
    have h := outcome_read (o := some _) (reads_readValue_int depth hlo hmax hr.endsNumber)
    rwa [Option.bind_some, ofJson?_int hlo hhi] at h
  | float x =>
    by_cases hfin : x.isFinite = true
    · have h := outcome_read (outcome_readValue_float depth hfin hr.endsNumber)
      rw [throughText?, if_pos hfin]
      cases hy : x.textReading? with
      | none => rwa [hy] at h
      | some y => rwa [hy] at h
    · have htext : compact (Datum.float x).toJson = compact .null := by
        simp [toJson, Json.float, compact, JsonNumber.text, hfin]
      rw [htext, throughText?, if_neg hfin]
      exact outcome_read (o := some _) (reads_readValue_null depth r)
  | text s => exact outcome_read (o := some _) (reads_readValue_string depth s r)

end Datum
end QueryShield