import ScriptScan.Proofs.Integers

namespace ScriptScan

open Numeral Digits

theorem Radix.one_lt_base (r : Radix) : 1 < r.base := by
  cases r <;> decide

namespace Binary64

/-- The number that the bits denote: the exponent stands above the 52 places of the fraction, and
there is a hidden place before them unless the exponent is zero. -/
def amount (x : Binary64) : ℚ :=
  let exponent : Nat := x.bits / 2 ^ 52
  let fraction : Nat := x.bits % 2 ^ 52
  if exponent = 0 then fraction * 2 ^ (-1074 : ℤ)
  else (2 ^ 52 + fraction) * 2 ^ ((exponent : ℤ) - 1075)

theorem amount_eq (x : Binary64) : x.amount = x.units / 2 ^ 1074 := by
  have hplace : twoTo 52 = 2 ^ 52 := rfl
  unfold amount units unitsOfBits
  rw [hplace]
  by_cases hsub : x.bits / 2 ^ 52 = 0
  · rw [if_pos hsub, if_pos hsub, Nat.mod_eq_of_lt (Nat.lt_of_div_eq_zero (by decide) hsub),
      zpow_neg]
    rfl
  · rw [if_neg hsub, if_neg hsub]
    obtain ⟨e, he⟩ := Nat.exists_eq_succ_of_ne_zero hsub
    have hexponent : ((e + 1 : Nat) : ℤ) - 1075 = e - (1074 : Nat) := by
      push_cast
      ring
    rw [he, Nat.succ_eq_add_one, hexponent, zpow_sub₀ (by norm_num), zpow_natCast, zpow_natCast,
      Nat.add_sub_cancel, Nat.cast_mul, cast_twoTo, mul_div_assoc]
    push_cast
    rfl

theorem amount_eq_natCast_iff (x : Binary64) (n : Nat) :
    x.amount = n ↔ x.units = n * twoTo 1074 := by
  have hpos : (2 : ℚ) ^ 1074 ≠ 0 := by positivity
  rw [amount_eq, div_eq_iff hpos, ← cast_twoTo, ← Nat.cast_mul, Nat.cast_inj]

theorem Short.mul_twoTo {n : Nat} (h : Short n) (s : Nat) : Short (n * twoTo s) := by
  obtain ⟨m, k, rfl, hm⟩ := h
  exact ⟨m, k + s, by rw [twoTo_add, Nat.mul_assoc], hm⟩

theorem Short.div_twoTo {n : Nat} (h : Short n) (s : Nat) : Short (n / twoTo s) := by
  obtain ⟨m, k, rfl, hm⟩ := h
  by_cases hs : s ≤ k
  · obtain ⟨i, rfl⟩ := Nat.exists_eq_add_of_le' hs
    refine ⟨m, i, ?_, hm⟩
    rw [twoTo_add, ← Nat.mul_assoc, Nat.mul_div_cancel _ (twoTo_pos s)]
  · obtain ⟨i, rfl⟩ := Nat.exists_eq_add_of_le' (Nat.le_of_not_le hs)
    refine ⟨m / twoTo i, 0, ?_, Nat.lt_of_le_of_lt (Nat.div_le_self _ _) hm⟩
    rw [twoTo_add, Nat.mul_div_mul_right _ _ (twoTo_pos k)]
    exact (Nat.mul_one _).symm

theorem Short.exists_nearest? {n : Nat} (h : Short n) (hn : n < twoTo 1024) :
    ∃ x, nearest? (n * twoTo 1074) 1 = some x ∧ x.amount = n := by
  have hlt : n < overflow := by
    have hle := h.le_of_lt (j := 970) hn
    have hunit := twoTo_pos 970
    rw [twoTo_54] at hle
    rw [overflow, twoTo_54]
    omega
  obtain ⟨m, k, hm, hsmall⟩ := h.mul_twoTo 1074
  cases hx : nearest? (n * twoTo 1074) 1 with
  | none =>
      rw [nearest?_eq_none_iff _ Nat.one_pos, Nat.one_mul,
        Nat.mul_le_mul_right_iff (twoTo_pos 1074)] at hx
      omega
  | some x =>
      refine ⟨x, rfl, ?_⟩
      rw [amount_eq_natCast_iff, hm]
      rw [hm] at hx
      exact units_of_nearest?_exact hsmall hx

end Binary64

open Binary64

namespace Digits

/-- Reading one more digit rounds nothing off, neither in the product nor in the sum. -/
def ExactStep (base : Nat) (c : Char) (x z : Binary64) : Prop :=
  ∃ y, x.mulNat? base = some y ∧ y.amount = x.amount * base ∧
    y.addNat? (value c) = some z ∧ z.amount = y.amount + value c

theorem exists_exactStep {x : Binary64} {n s : Nat} {c : Char} (hx : x.amount = n)
    (hn : Short n) (hnext : Short (n * twoTo s + value c))
    (hlt : n * twoTo s + value c < twoTo 1024) :
    ∃ z, ExactStep (twoTo s) c x z ∧ z.amount = (n * twoTo s + value c : Nat) := by
  obtain ⟨y, hy, hproduct⟩ := (hn.mul_twoTo s).exists_nearest? (by omega)
  obtain ⟨z, hz, hsum⟩ := hnext.exists_nearest? hlt
  refine ⟨z, ⟨y, ?_, ?_, ?_, ?_⟩, hsum⟩
  · rw [mulNat?, (x.amount_eq_natCast_iff n).mp hx, Nat.mul_right_comm, hy]
  · rw [hproduct, hx, Nat.cast_mul]
  · rw [addNat?, (y.amount_eq_natCast_iff _).mp hproduct, ← Nat.add_mul, hz]
  · rw [hsum, hproduct, Nat.cast_add]

theorem ExactStep.toBinary64?_append {base : Nat} {pre : List Char} {c : Char} {x z : Binary64}
    (hx : toBinary64? base pre = some x) (h : ExactStep base c x z) :
    toBinary64? base (pre ++ [c]) = some z := by
  obtain ⟨y, hy, -, hz, -⟩ := h
  unfold toBinary64? at hx ⊢
  rw [List.foldl_append, hx, List.foldl_cons, List.foldl_nil, Option.bind_some, hy,
    Option.bind_some, hz]

theorem number_lt {base : Nat} (hb : 1 < base) {cs : List Char}
    (h : ∀ c ∈ cs, isOf base c = true) : number base cs < base ^ cs.length := by
  have hlt := Nat.ofDigits_lt_base_pow_length hb (l := (cs.map value).reverse) (by
    intro d hd
    obtain ⟨c, hc, rfl⟩ := List.mem_map.mp (List.mem_reverse.mp hd)
    simpa [isOf] using h c hc)
  simpa [number] using hlt

theorem number_eq_div {base : Nat} (hb : 1 < base) (pre : List Char) {post : List Char}
    (h : ∀ c ∈ post, isOf base c = true) :
    number base pre = number base (pre ++ post) / base ^ post.length := by
  have hlt := number_lt hb h
  rw [number_append, Nat.mul_comm, Nat.mul_add_div (by omega), Nat.div_eq_of_lt hlt, Nat.add_zero]

variable {r : Radix} {pre post : List Char} {c : Char}

theorem short_number_of_append (hpost : ∀ d ∈ post, isOf r.base d = true)
    (h : Short (number r.base (pre ++ post))) : Short (number r.base pre) := by
  obtain ⟨s, hs⟩ := r.base_eq_twoTo
  have hplaces : r.base ^ post.length = twoTo (s * post.length) := by
    rw [hs]
    exact (Nat.pow_mul 2 s _).symm
  rw [number_eq_div r.one_lt_base pre hpost, hplaces]
  exact h.div_twoTo _

theorem exists_exactStep_of_amount (hpost : ∀ d ∈ c :: post, isOf r.base d = true)
    (hshort : Short (number r.base (pre ++ c :: post)))
    (hlt : number r.base (pre ++ c :: post) < twoTo 1024) {x : Binary64}
    (hx : x.amount = number r.base pre) :
    ∃ z, ExactStep r.base c x z ∧ z.amount = number r.base (pre ++ [c]) := by
  have hsplit : pre ++ c :: post = pre ++ [c] ++ post := by simp
  have hpost' : ∀ d ∈ post, isOf r.base d = true := fun d hd => hpost d (by simp [hd])
  have hnext : number r.base (pre ++ [c]) = number r.base pre * r.base + value c := by
    rw [number_append, number_singleton, List.length_singleton, pow_one]
  have hle : number r.base (pre ++ [c]) ≤ number r.base (pre ++ c :: post) := by
    rw [number_eq_div r.one_lt_base (pre ++ [c]) hpost', ← hsplit]
    exact Nat.div_le_self _ _
  have hn := short_number_of_append hpost hshort
  rw [hsplit] at hshort
  have hshort' := short_number_of_append hpost' hshort
  rw [hnext] at hshort' hle ⊢
  obtain ⟨s, hs⟩ := r.base_eq_twoTo
  rw [hs] at hx hn hshort' hle hlt ⊢
  exact exists_exactStep hx hn hshort' (Nat.lt_of_le_of_lt hle hlt)

/-- What has been read of a short number is a float, with nothing rounded off. -/
theorem exists_toBinary64?_of_short {ds : List Char} (h : ∀ d ∈ ds, isOf r.base d = true)
    (hshort : Short (number r.base ds)) (hlt : number r.base ds < twoTo 1024) (hpre : pre <+: ds) :
    ∃ x, toBinary64? r.base pre = some x ∧ x.amount = number r.base pre := by
  obtain ⟨post, rfl⟩ := hpre
  -- Digits are read from the front, so the last one is taken off; what is left is short as well.
  induction pre using List.reverseRecOn generalizing post with
  | nil => exact ⟨zero, rfl, (zero.amount_eq_natCast_iff 0).mpr (Nat.zero_mul _).symm⟩
  | append_singleton pre c ih =>
      rw [List.append_assoc, List.singleton_append] at h hshort hlt
      obtain ⟨x, hx, hamount⟩ := ih (c :: post) h hshort hlt
      have hpost : ∀ d ∈ c :: post, isOf r.base d = true :=
        fun d hd => h d (List.mem_append_right pre hd)
      obtain ⟨z, hz, hamount'⟩ := exists_exactStep_of_amount hpost hshort hlt hamount
      exact ⟨z, hz.toBinary64?_append hx, hamount'⟩

theorem isRun_repr (n : Nat) : Text.IsRun Char.isDigit n.repr.toList := by
  rw [Nat.repr_eq_ofList_toDigits, String.toList_ofList]
  exact ⟨Nat.toDigits_ne_nil, fun c hc => Nat.isDigit_of_mem_toDigits (by decide) (by decide) hc⟩

theorem number_repr (n : Nat) : number 10 n.repr.toList = n := by
  rw [Nat.repr_eq_ofList_toDigits, String.toList_ofList]
  exact number_toDigits (by decide) (by decide) n

end Digits

theorem Decimal.toBinary64?_of_nonneg {d : Decimal} (h : 0 ≤ d.exponent) (hmax : d.exponent ≤ 308) :
    d.toBinary64? = nearest? (d.digits * tenTo d.exponent.toNat * twoTo 1074) 1 := by
  unfold toBinary64?
  by_cases hzero : d.digits = 0
  · rw [if_pos hzero, hzero, Nat.zero_mul, Nat.zero_mul]
    rfl
  · rw [if_neg hzero, if_neg (by omega), if_neg (by omega), if_pos h]

namespace Numeral

theorem Plain.proper_of_whole {ds : List Char} (hds : Text.IsRun Char.isDigit ds)
    (suffixed : Bool) : Plain.Proper ⟨ds, none, none, suffixed⟩ :=
  ⟨hds, by rintro _ ⟨⟩, by rintro _ ⟨⟩⟩

theorem Plain.chars_of_whole (ds : List Char) (suffixed : Bool) :
    Plain.chars ⟨ds, none, none, suffixed⟩ = ds ++ suffixChars suffixed := by
  rw [chars, body, fractionChars, exponentChars, List.append_nil, List.append_nil]

theorem Plain.value_of_whole {ds : List Char} (hds : Text.IsRun Char.isDigit ds) {x : Binary64}
    (hx : nearest? (number 10 ds * twoTo 1074) 1 = some x) :
    Plain.value ⟨ds, none, none, false⟩ = .ok (.float x) := by
  have hdecimal : Plain.decimal? ⟨ds, none, none, false⟩ = some ⟨number 10 ds, 0⟩ := by
    simp [decimal?, toNat?_ten hds]
  have hread : Decimal.toBinary64? ⟨number 10 ds, 0⟩ = some x := by
    rw [Decimal.toBinary64?_of_nonneg (by simp) (by simp)]
    simpa [tenTo] using hx
  rw [value, if_neg Bool.false_ne_true, float, hdecimal]
  simp [hread, Except.map]

end Numeral

theorem scan_repr {n : Nat} {x : Binary64} (hx : nearest? (n * twoTo 1074) 1 = some x) :
    scan n.repr = ⟨[⟨.number (.float x) .decimal, n.repr,
      Span.between .start (Location.start.advance n.repr.toList)⟩,
      Token.atEnd (Location.start.advance n.repr.toList)], []⟩ := by
  have hproper := Plain.proper_of_whole (isRun_repr n) false
  have htext : n.repr.toList = Plain.chars ⟨n.repr.toList, none, none, false⟩ := by
    rw [Plain.chars_of_whole]
    exact (List.append_nil _).symm
  rw [← number_repr n] at hx
  exact hproper.scan_ok (Plain.value_of_whole (isRun_repr n) hx) htext

theorem scan_radix_float {r : Radix} {marker : Char} (hr : Radix.ofMarker? marker = some r)
    {ds : List Char} (hds : Text.IsRun (isOf r.base) ds) {x : Binary64}
    (hx : toBinary64? r.base ds = some x) :
    let spelling := String.ofList ('0' :: marker :: ds)
    (scan spelling).diagnostics = [] ∧
      (scan spelling).tokens.map Token.kind = [.number (.float x) (.radix r), .eof] := by
  have hvalue : Marked.value ⟨r, marker, ds, false⟩ = .ok (.float x) := by
    rw [Marked.value, if_neg Bool.false_ne_true, hx]
  have htext : (String.ofList ('0' :: marker :: ds)).toList =
      '0' :: Marked.chars ⟨r, marker, ds, false⟩ := by
    simp [Marked.chars, suffixChars]
  dsimp only
  rw [Marked.scan_ok hr hds hvalue htext]
  exact ⟨rfl, rfl⟩

theorem twoTo_eq (n : Nat) : twoTo n = 2 ^ n := rfl

/-- An integer with 53 significant binary places at most, within the range of floats, is read as the
float of its value from any binary, octal or hexadecimal spelling, with nothing rounded off at any
digit. Its decimal digits are read as the same float, and the spelling with a suffix as the integer
itself. -/
theorem spellings_of_integer_agree {N m k : Nat} (hN : N = m * 2 ^ k) (hm : m < 2 ^ 53)
    (hlt : N < 2 ^ 1024) {r : Radix} {marker : Char} {ds : List Char}
    (hmarker : Grammar.marker r marker) (hds : ds ∈ Grammar.many (Grammar.radixDigit r))
    (hvalue : positional r.base ds = N) :
    let spelling := String.ofList ('0' :: marker :: ds)
    let suffixed := String.ofList ('0' :: marker :: ds ++ ['n'])
    ∃ x : Binary64, x.amount = N ∧
      ((scan spelling).diagnostics = [] ∧
        (scan spelling).tokens.map Token.kind = [.number (.float x) (.radix r), .eof]) ∧
      (∀ pre c post, ds = pre ++ c :: post → ∃ y z, toBinary64? r.base pre = some y ∧
        y.amount = positional r.base pre ∧ ExactStep r.base c y z ∧
        toBinary64? r.base (pre ++ [c]) = some z) ∧
      ((scan N.repr).diagnostics = [] ∧
        (scan N.repr).tokens.map Token.kind = [.number (.float x) .decimal, .eof]) ∧
      (scan suffixed).diagnostics = [] ∧
        (scan suffixed).tokens.map Token.kind = [.number (.integer N) (.radix r), .eof] := by
  have hr := (Grammar.marker_iff r marker).mp hmarker
  have hrun := Grammar.isRun_radix_iff.mp hds
  have hnumber : number r.base ds = N := by
    rw [number_eq_positional r.base_le hrun.2, hvalue]
  have hshort : Short (number r.base ds) := ⟨m, k, hnumber.trans hN, hm⟩
  have hrange : number r.base ds < twoTo 1024 := by rwa [hnumber, twoTo_eq]
  obtain ⟨x, hx, hamount⟩ := exists_toBinary64?_of_short hrun.2 hshort hrange List.prefix_rfl
  rw [hnumber] at hamount
  have hnearest : nearest? (N * twoTo 1074) 1 = some x := by
    rw [← (x.amount_eq_natCast_iff N).mp hamount, nearest?_units]
  refine ⟨x, hamount, scan_radix_float hr hrun hx, ?_, ?_, ?_⟩
  · intro pre c post hsplit
    obtain ⟨y, hy, hread⟩ := exists_toBinary64?_of_short hrun.2 hshort hrange ⟨_, hsplit.symm⟩
    rw [hsplit] at hrun hshort hrange
    have hpost : ∀ d ∈ c :: post, isOf r.base d = true :=
      fun d hd => hrun.2 d (List.mem_append_right pre hd)
    have hpre : ∀ d ∈ pre, isOf r.base d = true :=
      fun d hd => hrun.2 d (List.mem_append_left _ hd)
    obtain ⟨z, hz, -⟩ := exists_exactStep_of_amount hpost hshort hrange hread
    refine ⟨y, z, hy, ?_, hz, hz.toBinary64?_append hy⟩
    rw [hread, number_eq_positional r.base_le hpre]
  · rw [scan_repr hnearest]
    exact ⟨rfl, rfl⟩
  · rw [← hvalue]
    exact scan_marked (m := ⟨r, marker, ds, true⟩) hr hrun rfl

/-- The largest float, in letters of both cases and with a leading zero. -/
theorem spellings_of_largest_float_agree :
    let ds := "0FfFfFfFfFfFfF8".toList ++ List.replicate 242 '0'
    ∃ x : Binary64, x.amount = ((2 ^ 53 - 1) * 2 ^ 971 : Nat) ∧
      (scan (String.ofList ('0' :: 'X' :: ds))).tokens.map Token.kind =
        [.number (.float x) (.radix .hexadecimal), .eof] ∧
      (scan ((2 ^ 53 - 1) * 2 ^ 971 : Nat).repr).tokens.map Token.kind =
        [.number (.float x) .decimal, .eof] := by
  have hds : "0FfFfFfFfFfFfF8".toList ++ List.replicate 242 '0' ∈
      Grammar.many (Grammar.radixDigit .hexadecimal) :=
    Grammar.isRun_radix_iff.mpr (Text.isRun_of_all (by decide +kernel) (by decide +kernel))
  obtain ⟨x, hx, ⟨-, hradix⟩, -, ⟨-, hdecimal⟩, -⟩ :=
    spellings_of_integer_agree (N := (2 ^ 53 - 1) * 2 ^ 971) (m := 2 ^ 53 - 1) (k := 971) rfl
      (by decide) (by decide +kernel) (r := .hexadecimal) (.inr rfl) hds (by decide +kernel)
  exact ⟨x, hx, hradix, hdecimal⟩

end ScriptScan
