import RecordQuery.Proofs.Floats.Encoding

/-! # Floats the other way round

Two floats compare the other way round with the opposite outcome. Their difference then has the
opposite sign too, also where it is rounded, overflows or is no number: rounding and encoding look
at the sign only to pass it on.
-/

namespace RecordQuery.Binary

open Float.Model Float.Model.UnpackedFloat

variable {f g : UnpackedFloat} {x y : Float}

/-! ## Comparisons -/

/-- The comparison of two floats the other way round. -/
theorem compare_swap (a b : UnpackedFloat) : b.compare a = (a.compare b).map Ordering.swap := by
  cases a with
  | notANumber => cases b <;> rfl
  | infinity s =>
      cases b with
      | notANumber => cases s <;> rfl
      | infinity t => cases s <;> cases t <;> rfl
      | zero t | finite t n f hn => cases s <;> rfl
  | zero s =>
      cases b with
      | notANumber | zero t => rfl
      | infinity t | finite t n f hn => cases t <;> rfl
  | finite s m e hm =>
      cases b with
      | notANumber => cases s <;> rfl
      | infinity t => cases s <;> cases t <;> rfl
      | zero t => cases s <;> rfl
      | finite t n f hn =>
          have hswap : ((compare e f).then (compare m n)).swap =
              (compare f e).then (compare n m) := by
            rw [Ordering.swap_then, ← Std.OrientedOrd.eq_swap, ← Std.OrientedOrd.eq_swap]
          cases s <;> cases t <;> simp [UnpackedFloat.compare, hswap]

theorem beq_comm (x y : Float) : (x == y) = (y == x) := by
  change (x.toModel.unpack.compare y.toModel.unpack == some .eq) =
    (y.toModel.unpack.compare x.toModel.unpack == some .eq)
  rw [compare_swap x.toModel.unpack]
  rcases x.toModel.unpack.compare y.toModel.unpack with _ | _ | _ | _ <;> rfl

/-! ## Differences -/

/-- One float is the other with the opposite sign. For zeros the sign does not count. -/
inductive Opposite : UnpackedFloat → UnpackedFloat → Prop where
  | neg (f : UnpackedFloat) : Opposite f f.neg
  | zeros (s t : Sign) : Opposite (.zero s) (.zero t)

theorem round_neg (s : Sign) (m : Nat) (e : Int) :
    UnpackedFloat.round Format.binary64 (-s) m e =
      (UnpackedFloat.round Format.binary64 s m e).neg := by
  simp only [UnpackedFloat.round, roundWithAccuracy]
  split <;> rfl

theorem opposite_normalize (m e : Int) (s : Sign) :
    Opposite (UnpackedFloat.normalize Format.binary64 m e s)
      (UnpackedFloat.normalize Format.binary64 (-m) e s) := by
  have hround (s : Sign) (n : Nat) : Opposite (UnpackedFloat.round Format.binary64 s n e)
      (UnpackedFloat.round Format.binary64 (-s) n e) := by
    rw [round_neg]
    exact .neg _
  simp only [UnpackedFloat.normalize]
  rcases lt_trichotomy m 0 with hneg | rfl | hpos
  · rw [compare_lt_iff_lt.mpr hneg, compare_gt_iff_gt.mpr (Int.neg_pos_of_neg hneg)]
    exact hround .negative _
  · exact .zeros s s
  · rw [compare_gt_iff_gt.mpr hpos, compare_lt_iff_lt.mpr (Int.neg_neg_of_pos hpos), neg_neg]
    exact hround .positive _

theorem opposite_sub (f g : UnpackedFloat) :
    Opposite (UnpackedFloat.sub Format.binary64 f g) (UnpackedFloat.sub Format.binary64 g f) := by
  cases f with
  | notANumber => cases g <;> exact .neg .notANumber
  | infinity s =>
      cases g with
      | notANumber => exact .neg .notANumber
      | infinity t => cases s <;> cases t <;> exact .neg _
      | zero t | finite t n k hn => exact .neg (.infinity s)
  | zero s =>
      cases g with
      | notANumber => exact .neg .notANumber
      | infinity t => cases t <;> exact .neg _
      | zero t => cases s <;> cases t <;> exact .zeros _ _
      | finite t n k hn => cases t <;> exact .neg _
  | finite s m e hm =>
      cases g with
      | notANumber => exact .neg .notANumber
      | infinity t => cases t <;> exact .neg _
      | zero t => exact .neg (.finite s m e hm)
      | finite t n k hn =>
          -- Both ways the significands are brought to the smaller exponent.
          simp only [UnpackedFloat.sub, min_comm k e]
          rw [← neg_sub (s.apply _)]
          exact opposite_normalize _ _ _

/-! ## Encoding -/

theorem unpack_packComponents_neg (s : Sign) (exponent : BitVec 11) (mantissa : BitVec 52) :
    UnpackedFloat.unpack Format.binary64
        (packComponents Format.binary64 (-s) exponent mantissa) =
      (UnpackedFloat.unpack Format.binary64
        (packComponents Format.binary64 s exponent mantissa)).neg := by
  simp only [UnpackedFloat.unpack, unpackSign_packComponents, unpackExponent_packComponents,
    unpackMantissa_packComponents, Sign.ofBitVec_toBitVec]
  split
  · split <;> rfl
  · split
    · split <;> rfl
    · rfl

/-- A float is encoded with its sign, whatever its significand and its exponent. -/
theorem unpack_pack_neg (f : UnpackedFloat) :
    (Float.Model.pack f.neg).unpack = (Float.Model.pack f).unpack.neg := by
  change UnpackedFloat.unpack Format.binary64 (UnpackedFloat.pack Format.binary64 f.neg) =
    (UnpackedFloat.unpack Format.binary64 (UnpackedFloat.pack Format.binary64 f)).neg
  cases f with
  | notANumber => rfl
  | infinity s | zero s => exact unpack_packComponents_neg s _ _
  | finite s m e hm =>
      simp only [UnpackedFloat.neg, UnpackedFloat.pack]
      split
      · exact unpack_packComponents_neg s _ _
      · split <;> exact unpack_packComponents_neg s _ _

theorem Opposite.unpack_pack (h : Opposite f g) :
    Opposite (Float.Model.pack f).unpack (Float.Model.pack g).unpack := by
  cases h with
  | neg f =>
      rw [unpack_pack_neg]
      exact .neg _
  | zeros s t =>
      rw [unpack_pack_zero, unpack_pack_zero]
      exact .zeros s t

/-! ## Comparisons with zero -/

theorem Opposite.compare_zero (h : Opposite f g) (s : Sign) :
    g.compare (.zero s) = (f.compare (.zero s)).map Ordering.swap := by
  cases h with
  | neg f =>
      cases f with
      | notANumber | zero t => rfl
      | infinity t | finite t m e hm => cases t <;> rfl
  | zeros t t' => rfl

theorem lt_iff_compare : x < y ↔ x.toModel.unpack.compare y.toModel.unpack = some .lt := by
  change decide (x.toModel.unpack.lt y.toModel.unpack = true) = true ↔ _
  rw [decide_eq_true_iff, UnpackedFloat.lt, beq_iff_eq]

theorem gt_iff_compare : y < x ↔ x.toModel.unpack.compare y.toModel.unpack = some .gt := by
  rw [lt_iff_compare, compare_swap x.toModel.unpack]
  cases x.toModel.unpack.compare y.toModel.unpack with
  | none => simp
  | some o => cases o <;> simp

theorem not_lt_of_lt (h : x < y) : ¬ y < x := by
  rw [gt_iff_compare, lt_iff_compare.mp h]
  simp

theorem sub_lt_zero_iff (x y : Float) : x - y < 0.0 ↔ 0.0 < y - x := by
  have hopposite : Opposite (y - x).toModel.unpack (x - y).toModel.unpack :=
    (opposite_sub y.toModel.unpack x.toModel.unpack).unpack_pack
  have hcompare : (x - y).toModel.unpack.compare (0.0 : Float).toModel.unpack =
      ((y - x).toModel.unpack.compare (0.0 : Float).toModel.unpack).map Ordering.swap :=
    hopposite.compare_zero .positive
  rw [lt_iff_compare, gt_iff_compare, hcompare]
  cases (y - x).toModel.unpack.compare (0.0 : Float).toModel.unpack with
  | none => simp
  | some o => cases o <;> simp

end RecordQuery.Binary
