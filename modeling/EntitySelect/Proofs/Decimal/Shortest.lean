import EntitySelect.Decimal.Shortest
import EntitySelect.Proofs.Decimal.Rounding
import Mathlib.Data.List.TakeWhile

/-! The texts of doubles. The text of a decimal tells its value, and the decimal that is printed for
a double tells the double, so different doubles have different texts. -/
namespace EntitySelect

namespace Double

theorem nearestRank_mul_mul (num den : Nat) {k : Nat} (hk : 0 < k) :
    nearestRank (num * k) (den * k) = nearestRank num den := by
  have hscale : scaleOf (num * k) (den * k) = scaleOf num den := by
    rw [scaleOf, scaleOf, Nat.mul_div_mul_right _ _ hk]
  rw [nearestRank_eq, nearestRank_eq, hscale, Nat.mul_right_comm, roundDiv_mul_mul _ _ hk]

/-- Every magnitude is the double nearest to itself. -/
theorem nearestRank_unitsOf (rank : Nat) : nearestRank (unitsOf rank) 1 = rank := by
  by_cases hsmall : rank < 2 ^ 53
  · have hscale : scaleOf rank 1 = 0 := by
      rcases Nat.eq_zero_or_pos rank with rfl | hpos
      · rfl
      · have hlog : Nat.log2 rank < 53 := (Nat.log2_lt (by omega)).2 hsmall
        rw [scaleOf, Nat.div_one]
        omega
    rw [unitsOf_of_lt hsmall, nearestRank_eq, hscale]
    simpa using @roundDiv_mul 1 rank (by decide)
  · have hshift : rank >>> 52 = rank / 2 ^ 52 := Nat.shiftRight_eq_div_pow rank 52
    have hunits : unitsOf rank =
        (rank - (rank / 2 ^ 52 - 1) * 2 ^ 52) * 2 ^ (rank / 2 ^ 52 - 1) := by
      simp only [unitsOf, hshift, Nat.shiftLeft_eq]
    rw [hunits, nearestRank_scaled (by omega) (by omega)]
    omega

end Double

namespace Text

/-- What stands before the first `c`, and what stands behind it. -/
def cut (c : Char) (cs : List Char) : List Char × List Char :=
  (cs.takeWhile (· != c), (cs.dropWhile (· != c)).drop 1)

theorem cut_of_not_mem {c : Char} {cs : List Char} (h : c ∉ cs) : cut c cs = (cs, []) := by
  have hall : ∀ d ∈ cs, (d != c) = true := fun d hd => bne_iff_ne.2 (ne_of_mem_of_not_mem hd h)
  rw [cut, List.takeWhile_eq_self_iff.2 hall, List.dropWhile_eq_nil_iff.2 hall]
  rfl

theorem cut_append_cons {c : Char} {before : List Char} (h : c ∉ before) (after : List Char) :
    cut c (before ++ c :: after) = (before, after) := by
  have hall : ∀ d ∈ before, (d != c) = true :=
    fun d hd => bne_iff_ne.2 (ne_of_mem_of_not_mem hd h)
  rw [cut, List.takeWhile_append_of_pos hall, List.dropWhile_append_of_pos hall]
  simp

/-- A minus, or nothing. -/
def sign (negative : Bool) : List Char := if negative then ['-'] else []

/-- A sign is told apart from digits that it stands before. -/
theorem sign_append_inj {negative negative' : Bool} {c c' : Char} {cs cs' : List Char}
    (hc : c.isDigit = true) (hc' : c'.isDigit = true)
    (h : sign negative ++ c :: cs = sign negative' ++ c' :: cs') :
    negative = negative' ∧ c :: cs = c' :: cs' := by
  have hminus {c : Char} (hc : c.isDigit = true) : c ≠ '-' := by
    rintro rfl
    exact absurd hc (by decide)
  have hne := hminus hc
  have hne' := hminus hc'
  cases negative <;> cases negative' <;> simp_all [sign, Ne.symm]

end Text

namespace Decimal

theorem rank_of_neg {d : Decimal} (h : d.exponent < 0) :
    d.rank = Double.nearestRank (d.digits * Double.one) (Nat.pow 10 d.exponent.natAbs) := by
  rw [rank, quotient, if_neg (Int.not_le.2 h)]

theorem rank_of_nonneg {d : Decimal} (h : 0 ≤ d.exponent) :
    d.rank = Double.nearestRank (d.digits * Nat.pow 10 d.exponent.natAbs * Double.one) 1 := by
  rw [rank, quotient, if_pos h]

theorem rank_of_onGrid {rank : Nat} {exponent : Int} {d : Decimal}
    (h : onGrid rank exponent = some d) : d.rank = rank := by
  simp only [onGrid] at h
  simpa using List.find?_some h

/-- Where one is `2 ^ k` units, a unit is `5 ^ k` times `10 ^ (-k)`. -/
theorem rank_fives {k : Nat} (hpos : 0 < k) (hone : Double.one = 2 ^ k) (units : Nat) :
    (Decimal.mk (units * Nat.pow 5 k) (-k)).rank = Double.nearestRank units 1 := by
  have hten : units * Nat.pow 5 k * Double.one = units * Nat.pow 10 k := by
    rw [hone, Nat.mul_assoc]
    exact congrArg (units * ·) (Nat.mul_pow 5 2 k).symm
  have hexponent : (-(k : Int)).natAbs = k := by omega
  have hscaled := Double.nearestRank_mul_mul units 1 (Nat.pow_pos (n := k) (by decide : 0 < 10))
  rw [rank_of_neg (show -(k : Int) < 0 by omega), hexponent, hten, ← hscaled, Nat.one_mul]
  rfl

theorem rank_exact (rank : Nat) : (exact rank).rank = rank := by
  obtain ⟨k, hone, hk⟩ := Double.exists_one
  have hexponent : (-1074 : Int) = -k := by omega
  rw [exact, hexponent, ← hk, rank_fives (by omega) hone, Double.nearestRank_unitsOf]

/-- The shortest decimal reads back as the magnitude. -/
theorem rank_shortest (rank : Nat) : (shortest rank).rank = rank := by
  rw [shortest]
  cases hfound : (List.range 18).findSome? fun n : Nat =>
      onGrid rank (reachOf (Double.unitsOf rank) - n) with
  | none => exact rank_exact rank
  | some d =>
    obtain ⟨n, -, hn⟩ := List.exists_of_findSome?_eq_some hfound
    exact rank_of_onGrid hn

/-- The number that digits with a sign show. -/
def signed : List Char → Int
  | '-' :: ds => -(Nat.ofDigitChars 10 ds 0 : Int)
  | _ :: ds => Nat.ofDigitChars 10 ds 0
  | [] => 0

/-- Reads a decimal: digits with or without a point, then a power of ten if there is an `e`. -/
def ofChars (cs : List Char) : Decimal :=
  let (mantissa, power) := Text.cut 'e' cs
  let (whole, fraction) := Text.cut '.' mantissa
  ⟨Nat.ofDigitChars 10 (whole ++ fraction) 0, signed power - fraction.length⟩

section Reading
variable {whole fraction : List Char}

theorem not_mem_of_digits {cs : List Char} {c : Char} (h : ∀ d ∈ cs, d.isDigit = true)
    (hc : c.isDigit = false) : c ∉ cs := by
  intro hmem
  rw [h c hmem] at hc
  cases hc

theorem ofChars_plain (hwhole : ∀ c ∈ whole, c.isDigit = true)
    (hfraction : ∀ c ∈ fraction, c.isDigit = true) :
    ofChars (whole ++ '.' :: fraction) =
      ⟨Nat.ofDigitChars 10 (whole ++ fraction) 0, -fraction.length⟩ := by
  have hmantissa : 'e' ∉ whole ++ '.' :: fraction := by
    simp [not_mem_of_digits hwhole, not_mem_of_digits hfraction]
  have hpoint : '.' ∉ whole := not_mem_of_digits hwhole rfl
  simp only [ofChars, Text.cut_of_not_mem hmantissa, Text.cut_append_cons hpoint, signed]
  simp

theorem ofChars_power {mantissa power : List Char} (h : 'e' ∉ mantissa) :
    ofChars (mantissa ++ 'e' :: power) =
      ⟨(ofChars mantissa).digits, signed power + (ofChars mantissa).exponent⟩ := by
  simp only [ofChars, Text.cut_of_not_mem h, Text.cut_append_cons h, signed]
  grind

theorem ofChars_digits (h : ∀ c ∈ whole, c.isDigit = true) :
    ofChars whole = ⟨Nat.ofDigitChars 10 whole 0, 0⟩ := by
  have he : 'e' ∉ whole := not_mem_of_digits h rfl
  have hpoint : '.' ∉ whole := not_mem_of_digits h rfl
  simp [ofChars, Text.cut_of_not_mem he, Text.cut_of_not_mem hpoint, signed]

end Reading

theorem isDigit_of_mem_digits {n : Nat} : ∀ c ∈ (toString n).toList, c.isDigit = true := by
  intro c hc
  rw [Nat.toString_eq_repr, Nat.toList_repr] at hc
  exact Nat.isDigit_of_mem_toDigits (by decide) (by decide) hc

theorem ofDigitChars_digits (n : Nat) : Nat.ofDigitChars 10 (toString n).toList 0 = n := by
  rw [Nat.toString_eq_repr, Nat.toList_repr, Nat.ofDigitChars_ten_toDigits]

theorem exists_digits (n : Nat) :
    ∃ c cs, (toString n).toList = c :: cs ∧ ∀ c' ∈ c :: cs, c'.isDigit = true := by
  have hlength : 0 < (toString n).toList.length := by
    rw [Nat.toString_eq_repr, Nat.toList_repr]
    exact Nat.length_toDigits_pos
  obtain ⟨c, cs, hcs⟩ := List.exists_cons_of_length_pos hlength
  exact ⟨c, cs, hcs, hcs ▸ isDigit_of_mem_digits⟩

theorem isDigit_of_mem_zeros {k : Nat} : ∀ c ∈ List.replicate k '0', c.isDigit = true := by
  intro c hc
  rw [List.eq_of_mem_replicate hc]
  rfl

section Forms
variable {ds : List Char} (hds : ∀ c ∈ ds, c.isDigit = true)
include hds

/-- Zeros behind the digits count, and so does the one behind the point. -/
theorem ofChars_whole (k : Nat) : ofChars (ds ++ List.replicate k '0' ++ ['.', '0']) =
    ⟨Nat.ofDigitChars 10 ds 0 * Nat.pow 10 k * 10, -1⟩ := by
  rw [ofChars_plain (List.forall_mem_append.2 ⟨hds, isDigit_of_mem_zeros⟩)
    (List.forall_mem_singleton.2 rfl)]
  have hone : ['0'] = List.replicate 1 '0' := rfl
  rw [Nat.ofDigitChars_append, Nat.ofDigitChars_append, hone, Nat.ofDigitChars_replicate_zero,
    Nat.ofDigitChars_replicate_zero, Nat.mul_comm (10 ^ k), Nat.pow_one, Nat.mul_comm 10]
  rfl

theorem ofChars_point (i : Nat) : ofChars (ds.take i ++ '.' :: ds.drop i) =
    ⟨Nat.ofDigitChars 10 ds 0, -(ds.length - i : Nat)⟩ := by
  rw [ofChars_plain (fun c hc => hds c (List.mem_of_mem_take hc))
    (fun c hc => hds c (List.mem_of_mem_drop hc)), List.take_append_drop, List.length_drop]

/-- Zeros in front of the digits do not count, but for their number. -/
theorem ofChars_small (k : Nat) : ofChars (['0', '.'] ++ (List.replicate k '0' ++ ds)) =
    ⟨Nat.ofDigitChars 10 ds 0, -(k + ds.length : Nat)⟩ := by
  have h := @ofChars_plain ['0'] (List.replicate k '0' ++ ds) (List.forall_mem_singleton.2 rfl)
    (List.forall_mem_append.2 ⟨isDigit_of_mem_zeros, hds⟩)
  have hzeros : ['0'] ++ (List.replicate k '0' ++ ds) = List.replicate (k + 1) '0' ++ ds := rfl
  rw [hzeros, Nat.ofDigitChars_append, Nat.ofDigitChars_replicate_zero, Nat.mul_zero,
    List.length_append, List.length_replicate] at h
  exact h

/-- One digit stands before the point, and no point where there is one digit only. -/
theorem ofChars_mantissa :
    ofChars (if ds.length ≤ 1 then ds else ds.take 1 ++ '.' :: ds.drop 1) =
      ⟨Nat.ofDigitChars 10 ds 0, -(ds.length - 1 : Nat)⟩ := by
  split
  · next hone =>
    rw [ofChars_digits hds, Nat.sub_eq_zero_of_le hone]
    rfl
  · exact ofChars_point hds 1

theorem not_mem_mantissa : 'e' ∉ if ds.length ≤ 1 then ds else ds.take 1 ++ '.' :: ds.drop 1 := by
  have he : 'e' ∉ ds := not_mem_of_digits hds rfl
  split
  · exact he
  · simp only [List.mem_append, List.mem_cons, not_or]
    exact ⟨fun h => he (List.mem_of_mem_take h), by decide, fun h => he (List.mem_of_mem_drop h)⟩

end Forms

theorem signed_power (top : Int) :
    signed ((if top < 0 then "-" else "+").toList ++ (toString top.natAbs).toList) = top := by
  split
  · change -(Nat.ofDigitChars 10 (toString top.natAbs).toList 0 : Int) = top
    rw [ofDigitChars_digits]
    omega
  · change (Nat.ofDigitChars 10 (toString top.natAbs).toList 0 : Int) = top
    rw [ofDigitChars_digits]
    omega

/-- A decimal does not change its value when a zero goes behind the point. -/
theorem rank_shifted {d : Decimal} (h : 0 ≤ d.exponent) :
    (Decimal.mk (d.digits * Nat.pow 10 d.exponent.natAbs * 10) (-1)).rank = d.rank := by
  rw [rank_of_neg (Int.negSucc_lt_zero 0), rank_of_nonneg h, Nat.mul_right_comm _ 10]
  exact Double.nearestRank_mul_mul _ 1 (by decide)

/-- The text of a decimal, by its digits `ds` and the power `top` of ten of the first of them. -/
theorem toList_text {d : Decimal} {ds : List Char} {top : Int}
    (hds : (toString d.digits).toList = ds) (htop : d.exponent + ds.length - 1 = top) :
    d.text.toList =
      if -5 ≤ top ∧ top ≤ 15 then
        if 0 ≤ d.exponent then ds ++ List.replicate d.exponent.natAbs '0' ++ ['.', '0']
        else if 0 ≤ top then ds.take (top.natAbs + 1) ++ '.' :: ds.drop (top.natAbs + 1)
        else ['0', '.'] ++ (List.replicate (top.natAbs - 1) '0' ++ ds)
      else (if ds.length ≤ 1 then ds else ds.take 1 ++ '.' :: ds.drop 1) ++
        'e' :: ((if top < 0 then "-" else "+").toList ++ (toString top.natAbs).toList) := by
  subst hds htop
  have hpoint : ".0".toList = ['.', '0'] := rfl
  have hpower : "e".toList = ['e'] := rfl
  simp only [text]
  split
  · split
    · rw [String.toList_append, String.toList_ofList, hpoint]
    · split
      · rw [String.toList_ofList]
      · rw [String.toList_append, String.toList_ofList, String.toList_ofList]
  · rw [String.toList_append, String.toList_append, String.toList_append, String.toList_ofList,
      hpower, List.append_assoc, List.append_assoc, List.singleton_append]

/-- The text of a decimal reads back as one of the same value. -/
theorem rank_ofChars_text (d : Decimal) : (ofChars d.text.toList).rank = d.rank := by
  obtain ⟨ds, hds, hdigits, hlength⟩ : ∃ ds, (toString d.digits).toList = ds ∧
      (∀ c ∈ ds, c.isDigit = true) ∧ 0 < ds.length := by
    obtain ⟨c, cs, hcs, hdigits⟩ := exists_digits d.digits
    exact ⟨c :: cs, hcs, hdigits, Nat.succ_pos _⟩
  obtain ⟨top, htop⟩ : ∃ top : Int, d.exponent + ds.length - 1 = top := ⟨_, rfl⟩
  have hvalue : Nat.ofDigitChars 10 ds 0 = d.digits := hds ▸ ofDigitChars_digits d.digits
  rw [toList_text hds htop]
  split
  · split
    · next hexponent =>
      rw [ofChars_whole hdigits, hvalue]
      exact rank_shifted hexponent
    · split
      · rw [ofChars_point hdigits, hvalue]
        congr 2
        omega
      · rw [ofChars_small hdigits, hvalue]
        congr 2
        omega
  · rw [ofChars_power (not_mem_mantissa hdigits), ofChars_mantissa hdigits, signed_power, hvalue]
    congr 2
    dsimp only
    omega

/-- The characters of a number. -/
def isNumeric (c : Char) : Bool := c.isDigit || ['-', '+', '.', 'e'].contains c

theorem isNumeric_of_isDigit {c : Char} (h : c.isDigit = true) : isNumeric c = true := by
  rw [isNumeric, h, Bool.true_or]

/-- Digits come first in the text of a decimal, then a point or an exponent, then more. -/
theorem exists_text (d : Decimal) : ∃ c whole mark rest,
    d.text.toList = c :: whole ++ mark :: rest ∧ (∀ c' ∈ c :: whole, c'.isDigit = true) ∧
      (mark = '.' ∨ mark = 'e') ∧ ∀ c' ∈ rest, isNumeric c' = true := by
  obtain ⟨c, more, hds, hdigits⟩ := exists_digits d.digits
  obtain ⟨top, htop⟩ : ∃ top : Int, d.exponent + (c :: more).length - 1 = top := ⟨_, rfl⟩
  obtain ⟨hc, hmore⟩ := List.forall_mem_cons.1 hdigits
  have hnumeric : ∀ c' ∈ more, isNumeric c' = true := fun c' h => isNumeric_of_isDigit (hmore c' h)
  have hpower : ∀ c' ∈ 'e' :: ((if top < 0 then "-" else "+").toList ++
      (toString top.natAbs).toList), isNumeric c' = true := by
    refine List.forall_mem_cons.2 ⟨rfl, List.forall_mem_append.2 ⟨?_, fun c' h =>
      isNumeric_of_isDigit (isDigit_of_mem_digits c' h)⟩⟩
    split <;> exact List.forall_mem_singleton.2 rfl
  rw [toList_text hds htop]
  split
  · split
    · refine ⟨c, more ++ List.replicate d.exponent.natAbs '0', '.', ['0'], rfl, ?_, .inl rfl,
        List.forall_mem_singleton.2 rfl⟩
      exact List.forall_mem_append.2 ⟨hdigits, isDigit_of_mem_zeros⟩
    · split
      · refine ⟨c, more.take top.natAbs, '.', more.drop top.natAbs, rfl, ?_, .inl rfl,
          fun c' h => hnumeric c' (List.mem_of_mem_drop h)⟩
        exact List.forall_mem_cons.2 ⟨hc, fun c' h => hmore c' (List.mem_of_mem_take h)⟩
      · refine ⟨'0', [], '.', List.replicate (top.natAbs - 1) '0' ++ c :: more, rfl,
          List.forall_mem_singleton.2 rfl, .inl rfl, ?_⟩
        exact List.forall_mem_append.2
          ⟨fun c' h => isNumeric_of_isDigit (isDigit_of_mem_zeros c' h),
            fun c' h => isNumeric_of_isDigit (hdigits c' h)⟩
  · split
    · next hone =>
      obtain rfl : more = [] :=
        List.length_eq_zero_iff.1 (Nat.le_zero.1 (Nat.le_of_succ_le_succ hone))
      exact ⟨c, [], 'e', _, rfl, hdigits, .inr rfl, (List.forall_mem_cons.1 hpower).2⟩
    · exact ⟨c, [], '.', more ++ _, by simp, List.forall_mem_singleton.2 hc, .inl rfl,
        List.forall_mem_append.2 ⟨hnumeric, hpower⟩⟩

end Decimal

namespace Double

/-- The text of a double is its sign and a decimal of its magnitude. -/
theorem exists_text (d : Double) :
    ∃ e : Decimal, e.rank = d.rank ∧ d.text.toList = Text.sign d.negative ++ e.text.toList := by
  have hsign : (if d.negative then "-" else "").toList = Text.sign d.negative := by
    rw [Text.sign]
    split <;> rfl
  by_cases hzero : d.rank = 0
  · refine ⟨⟨0, 0⟩, by rw [hzero]; decide +kernel, ?_⟩
    have htext : (Decimal.mk 0 0).text = "0.0" := by decide +kernel
    rw [text, if_pos hzero, String.toList_append, hsign, htext]
  · refine ⟨Decimal.shortest d.rank, Decimal.rank_shortest d.rank, ?_⟩
    rw [text, if_neg hzero, String.toList_append, hsign]

/-- Different doubles have different texts, and so do the two zeros. -/
theorem text_injective {d d' : Double} (h : d.text = d'.text) : d = d' := by
  obtain ⟨e, he, htext⟩ := d.exists_text
  obtain ⟨e', he', htext'⟩ := d'.exists_text
  obtain ⟨c, whole, mark, rest, hform, hdigits, -⟩ := e.exists_text
  obtain ⟨c', whole', mark', rest', hform', hdigits', -⟩ := e'.exists_text
  have hsame : Text.sign d.negative ++ e.text.toList = Text.sign d'.negative ++ e'.text.toList := by
    rw [← htext, ← htext', h]
  rw [hform, hform'] at hsame
  obtain ⟨hnegative, hmagnitude⟩ := Text.sign_append_inj (hdigits c List.mem_cons_self)
    (hdigits' c' List.mem_cons_self) hsame
  have hrank : d.rank = d'.rank := by
    rw [← he, ← he', ← Decimal.rank_ofChars_text e, ← Decimal.rank_ofChars_text e', hform, hform']
    exact congrArg (fun cs => (Decimal.ofChars cs).rank) hmagnitude
  obtain ⟨negative, rank, finite⟩ := d
  obtain ⟨negative', rank', finite'⟩ := d'
  obtain ⟨rfl, rfl⟩ : negative = negative' ∧ rank = rank' := ⟨hnegative, hrank⟩
  rfl

end Double
end EntitySelect
