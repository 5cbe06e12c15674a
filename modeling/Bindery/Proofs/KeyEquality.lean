import Bindery.Value
import Mathlib.Tactic

/-!
# Equality of keys

Keys are compared by `==`, which is coarser than equality: `1`, `1.0` and a truth value are one key.
`Scalar.identity` names what a scalar is compared by, and `Scalar.same_iff` says that two scalars
are one key exactly when these agree. From there `==` is an equivalence on scalars and, item by
item, on tuples, which is what the laws of ledgers ask of their keys.
-/

namespace Bindery

/-! ## Numbers -/

/-- What a scalar is compared by. -/
inductive Identity where
  | number (q : ℚ)
  | infinite (negative : Bool)
  | notANumber (x : Binary64)
  | instant (microseconds : Int)
  | clock (microseconds : Int)
  | itself (s : Scalar)
  deriving DecidableEq

namespace Binary64.Reading

/-- The identity of a number, if it is one. -/
def identity? : Reading → Option Identity
  | notANumber => none
  | infinite negative => some (.infinite negative)
  | finite negative mantissa exponent =>
    some (.number ((signed negative mantissa : ℚ) * 2 ^ exponent))

private theorem twoTo_eq (n : Nat) : twoTo n = 2 ^ n := rfl

/-- Two dyadic numbers are equal if they agree as multiples of the smaller power of two. -/
private theorem scaled_eq_iff (m n e f : ℤ) :
    m * 2 ^ (e - min e f).toNat = n * 2 ^ (f - min e f).toNat ↔
      (m : ℚ) * 2 ^ e = n * 2 ^ f := by
  have htwo : (2 : ℚ) ≠ 0 := by norm_num
  have hleast : (2 : ℚ) ^ min e f ≠ 0 := zpow_ne_zero _ htwo
  -- either power is a multiple of the smaller one, which can be cancelled
  have hsplit : ∀ g : ℤ, min e f ≤ g →
      (2 : ℚ) ^ g = 2 ^ (g - min e f).toNat * 2 ^ min e f := by
    intro g hg
    rw [← zpow_natCast, ← zpow_add₀ htwo]
    congr 1
    omega
  rw [hsplit e (min_le_left e f), hsplit f (min_le_right e f), ← mul_assoc, ← mul_assoc,
    mul_left_inj' hleast]
  exact_mod_cast Iff.rfl

/-- Two readings compare as equal exactly when they are one number. -/
theorem compare?_eq_iff (x y : Reading) :
    x.compare? y = some .eq ↔ x.identity? = y.identity? ∧ x.identity?.isSome := by
  cases x with
  | notANumber => simp [compare?, identity?]
  | infinite a =>
    cases y with
    | notANumber => simp [compare?, identity?]
    | infinite b => cases a <;> cases b <;> decide
    | finite b n f => cases a <;> simp [compare?, identity?]
  | finite a m e =>
    cases y with
    | notANumber => simp [compare?, identity?]
    | infinite b => cases b <;> simp [compare?, identity?]
    | finite b n f =>
      simp only [compare?, identity?, Option.some.injEq, Int.compare_eq_eq, Identity.number.injEq,
        Option.isSome_some, and_true, twoTo_eq, Nat.cast_pow, Nat.cast_ofNat]
      exact scaled_eq_iff _ _ e f

@[simp] theorem identity?_ofInt (n : Int) : (ofInt n).identity? = some (.number n) := by
  have hsigned : signed (n < 0) n.natAbs = n := by
    by_cases h : n < 0
    · rw [signed, if_pos (by simpa using h)]
      omega
    · rw [signed, if_neg (by simpa using h)]
      omega
  simp [identity?, ofInt, hsigned]

end Binary64.Reading

/-! ## Scalars -/

namespace Scalar

/-- The identity of a floating-point number: what is not a number is compared by its bits. -/
def floatIdentity (x : Binary64) : Identity :=
  x.reading.identity?.getD (.notANumber x)

/-- The identity of a moment: the instant if the offset is known, otherwise the clock. -/
def momentIdentity (m : Moment) : Identity :=
  match m.offset with
  | none => .clock m.clock
  | some o => .instant (m.clock - o * 60000000)

/-- What a scalar is compared by: its number if it has one, a moment by its time, and all else by
itself. -/
def identity : Scalar → Identity
  | .bool b => .number b.toInt
  | .int n => .number n
  | .float x => floatIdentity x
  | .moment m => momentIdentity m
  | s => .itself s

private theorem floatIdentity_eq_number_iff (x : Binary64) (q : ℚ) :
    floatIdentity x = .number q ↔ x.reading.identity? = some (.number q) := by
  cases h : x.reading <;> simp [floatIdentity, Binary64.Reading.identity?, h]

private theorem floatIdentity_ne_itself (x : Binary64) (s : Scalar) :
    floatIdentity x ≠ .itself s := by
  cases h : x.reading <;> simp [floatIdentity, Binary64.Reading.identity?, h]

private theorem momentIdentity_ne_itself (m : Moment) (s : Scalar) :
    momentIdentity m ≠ .itself s := by
  cases h : m.offset <;> simp [momentIdentity, h]

private theorem momentIdentity_ne_number (m : Moment) (q : ℚ) : momentIdentity m ≠ .number q := by
  cases h : m.offset <;> simp [momentIdentity, h]

private theorem floatIdentity_ne_momentIdentity (x : Binary64) (m : Moment) :
    floatIdentity x ≠ momentIdentity m := by
  cases h : x.reading <;> cases h' : m.offset <;>
    simp [floatIdentity, momentIdentity, Binary64.Reading.identity?, h, h']

/-- Two floating-point numbers are one key exactly when their identities agree. -/
private theorem same_float_iff (x y : Binary64) :
    same (.float x) (.float y) = true ↔ floatIdentity x = floatIdentity y := by
  simp only [same, Bool.or_eq_true, beq_iff_eq, Binary64.Reading.compare?_eq_iff]
  constructor
  · rintro (rfl | ⟨heq, hsome⟩)
    · rfl
    · obtain ⟨i, hi⟩ := Option.isSome_iff_exists.1 hsome
      rw [floatIdentity, floatIdentity, ← heq, hi]
      rfl
  · intro h
    -- the bits decide only between two that are not a number
    cases hx : x.reading <;> cases hy : y.reading <;>
      simp_all [floatIdentity, Binary64.Reading.identity?]

/-- A whole number and a floating-point number are one key if they are one number. -/
private theorem compare?_ofInt_iff (n : Int) (x : Binary64) :
    (Binary64.Reading.ofInt n).compare? x.reading = some .eq ↔ .number n = floatIdentity x := by
  rw [Binary64.Reading.compare?_eq_iff, Binary64.Reading.identity?_ofInt, eq_comm,
    eq_comm (a := Identity.number _), floatIdentity_eq_number_iff]
  simp

private theorem compare?_ofInt_right_iff (x : Binary64) (n : Int) :
    x.reading.compare? (Binary64.Reading.ofInt n) = some .eq ↔ floatIdentity x = .number n := by
  rw [Binary64.Reading.compare?_eq_iff, Binary64.Reading.identity?_ofInt,
    floatIdentity_eq_number_iff]
  exact and_iff_left_of_imp fun h => by rw [h]; rfl

/-- Two moments are one key exactly when their identities agree. -/
private theorem same_moment_iff (a b : Moment) :
    a.same b = true ↔ momentIdentity a = momentIdentity b := by
  cases ha : a.offset <;> cases hb : b.offset <;> simp [Moment.same, momentIdentity, ha, hb]

/-- Two scalars are one key exactly when their identities agree. -/
theorem same_iff (a b : Scalar) : a.same b = true ↔ a.identity = b.identity := by
  cases a with
  | float x =>
    cases b with
    | float y => exact same_float_iff x y
    | moment m => simp [same, number?, identity, floatIdentity_ne_momentIdentity]
    | bool b => simpa [same, number?, identity] using compare?_ofInt_right_iff x b.toInt
    | int n => simpa [same, number?, identity] using compare?_ofInt_right_iff x n
    | _ => simp [same, number?, identity, floatIdentity_ne_itself]
  | moment m =>
    cases b with
    | float x => simp [same, number?, identity, (floatIdentity_ne_momentIdentity x m).symm]
    | moment n => exact same_moment_iff m n
    | _ => simp [same, number?, identity, momentIdentity_ne_itself, momentIdentity_ne_number]
  | bool a =>
    cases b with
    | float x => simpa [same, number?, identity] using compare?_ofInt_iff a.toInt x
    | moment m => simp [same, number?, identity, (momentIdentity_ne_number m _).symm]
    | _ => simp [same, number?, identity, Binary64.Reading.compare?_eq_iff]
  | int a =>
    cases b with
    | float x => simpa [same, number?, identity] using compare?_ofInt_iff a x
    | moment m => simp [same, number?, identity, (momentIdentity_ne_number m _).symm]
    | _ => simp [same, number?, identity, Binary64.Reading.compare?_eq_iff]
  | _ =>
    cases b with
    | float x => simp [same, number?, identity, (floatIdentity_ne_itself x _).symm]
    | moment m => simp [same, number?, identity, (momentIdentity_ne_itself m _).symm]
    | _ => simp [same, number?, identity]

instance : EquivBEq Scalar where
  symm h := (same_iff _ _).2 ((same_iff _ _).1 h).symm
  trans h h' := (same_iff _ _).2 (((same_iff _ _).1 h).trans ((same_iff _ _).1 h'))
  rfl := (same_iff _ _).2 rfl

end Scalar

/-! ## Keys -/

namespace Key

mutual
theorem same_refl : ∀ k : Key, k.same k = true
  | .scalar s => (Scalar.same_iff s s).2 rfl
  | .tuple items => sameAll_refl items

theorem sameAll_refl : ∀ ks : List Key, sameAll ks ks = true
  | [] => rfl
  | k :: ks => by rw [sameAll, same_refl k, sameAll_refl ks, Bool.and_self]
end

mutual
theorem same_symm : ∀ a b : Key, a.same b = true → b.same a = true
  | .scalar _, .scalar _, h => PartialEquivBEq.symm (α := Scalar) h
  | .tuple as, .tuple bs, h => sameAll_symm as bs h

theorem sameAll_symm : ∀ as bs : List Key, sameAll as bs = true → sameAll bs as = true
  | [], [], _ => rfl
  | a :: as, b :: bs, h => by
    rw [sameAll, Bool.and_eq_true] at h ⊢
    exact ⟨same_symm a b h.1, sameAll_symm as bs h.2⟩
end

mutual
theorem same_trans : ∀ a b c : Key, a.same b = true → b.same c = true → a.same c = true
  | .scalar _, .scalar _, .scalar _, h, h' => PartialEquivBEq.trans (α := Scalar) h h'
  | .tuple as, .tuple bs, .tuple cs, h, h' => sameAll_trans as bs cs h h'

theorem sameAll_trans : ∀ as bs cs : List Key,
    sameAll as bs = true → sameAll bs cs = true → sameAll as cs = true
  | [], [], [], _, _ => rfl
  | a :: as, b :: bs, c :: cs, h, h' => by
    rw [sameAll, Bool.and_eq_true] at h h' ⊢
    exact ⟨same_trans a b c h.1 h'.1, sameAll_trans as bs cs h.2 h'.2⟩
end

/-- Equality of keys is an equivalence. -/
instance : EquivBEq Key where
  symm := same_symm _ _
  trans := same_trans _ _ _
  rfl := same_refl _

@[simp] theorem text_inj (s t : String) : Key.text s = .text t ↔ s = t := by
  simp [Key.text]

/-- A text is the same key as that text alone. -/
@[simp] theorem beq_text_iff (k : Key) (s : String) : (k == .text s) = true ↔ k = .text s := by
  constructor
  · intro h
    match k, h with
    | .scalar a, h =>
      have hsame : a.same (.text s) = true := h
      cases a <;> simp_all [Scalar.same, Scalar.number?, Key.text]
  · rintro rfl
    exact same_refl _

end Key

end Bindery
