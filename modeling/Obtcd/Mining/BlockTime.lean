import Obtcd.Blockchain.Difficulty

/-!
# Refreshing the time of a template

A miner that does not find a block in time asks for a fresh timestamp on the template it already
has: `UpdateBlockTime` sets the header to the current time, and recomputes the difficulty *only* on
networks with `ReduceMinDifficulty`.

`updateBlockTime_required_iff` says when that is enough.  A template whose difficulty was the
required one for its old time still has the required one after the refresh exactly when the network
recomputes it, or the block is not under ASERT, or ASERT gives the old and the new time the same
value.  On the OBTC main network the first never holds and the second fails for every block above
the first one of the fork, so there the refresh turns a valid template into a block that the header
check rejects (`refreshed_template_rejected`).
-/

namespace Obtcd

open Blockchain Chaincfg

namespace Mining

/-- One second after the past median time of the best chain. -/
def minimumMedianTime (medianTime : Int64) : Int64 := medianTime + 1

/-- `medianAdjustedTime`, where `adjustedTime` is what the time source returns. -/
def medianAdjustedTime (medianTime adjustedTime : Int64) : Int64 :=
  let minTimestamp := minimumMedianTime medianTime
  if adjustedTime < minTimestamp then minTimestamp else adjustedTime

/-- `UpdateBlockTime` on the header of a block, with the best chain `tip :: below`. -/
def updateBlockTime (c : ChainCtx) (tip : HeaderCtx) (below : List HeaderCtx)
    (adjustedTime : Int64) (header : Header) : Except GoError Header := do
  let newTime := medianAdjustedTime (calcPastMedianTime tip below) adjustedTime
  let header := { header with timestamp := newTime }
  if c.params.reduceMinDifficulty then
    let difficulty ← calcNextRequiredDifficulty c (tip :: below) newTime
    return { header with bits := difficulty }
  else return header

variable {c : ChainCtx} {tip : HeaderCtx} {below : List HeaderCtx} {adjustedTime : Int64}
  {header header' : Header}

/-- With the fallback the refreshed header states the difficulty of its new time. -/
theorem required_of_reduceMinDifficulty (hreduce : c.params.reduceMinDifficulty = true)
    (h : updateBlockTime c tip below adjustedTime header = .ok header') :
    calcNextRequiredDifficulty c (tip :: below) header'.timestamp = .ok header'.bits := by
  rw [updateBlockTime, if_pos hreduce] at h
  obtain ⟨difficulty, hrequired, hheader⟩ := bind_eq_ok.1 h
  cases hheader
  exact hrequired

/-- Without it the difficulty stays what it was. -/
theorem bits_of_not_reduceMinDifficulty (hreduce : c.params.reduceMinDifficulty = false)
    (h : updateBlockTime c tip below adjustedTime header = .ok header') :
    header'.bits = header.bits := by
  rw [updateBlockTime, if_neg (by rw [hreduce]; exact Bool.false_ne_true)] at h
  cases h
  rfl

/-- **When a refreshed template keeps the required difficulty.**  The template has the difficulty
that the header check requires for its old time; after the refresh it has the one required for its
new time exactly when the network recomputes it (`ReduceMinDifficulty`), the block is not under
ASERT, or ASERT requires the same for both times. -/
theorem updateBlockTime_required_iff
    (hvalid : calcNextRequiredDifficulty c (tip :: below) header.timestamp = .ok header.bits)
    (hupdate : updateBlockTime c tip below adjustedTime header = .ok header') :
    calcNextRequiredDifficulty c (tip :: below) header'.timestamp = .ok header'.bits ↔
      c.params.reduceMinDifficulty = true ∨ c.params.poWNoRetargeting = true ∨
        ¬ AsertActive c.params tip ∨
        asertDifficulty c.params tip below
            (medianAdjustedTime (calcPastMedianTime tip below) adjustedTime) =
          asertDifficulty c.params tip below header.timestamp := by
  cases hreduce : c.params.reduceMinDifficulty with
  | true => exact iff_of_true (required_of_reduceMinDifficulty hreduce hupdate) (.inl rfl)
  | false =>
    rw [bits_of_not_reduceMinDifficulty hreduce hupdate, ← hvalid]
    have htime : header'.timestamp =
        medianAdjustedTime (calcPastMedianTime tip below) adjustedTime := by
      rw [updateBlockTime, if_neg (by rw [hreduce]; exact Bool.false_ne_true)] at hupdate
      cases hupdate
      rfl
    by_cases hasert : c.params.poWNoRetargeting = false ∧ AsertActive c.params tip
    · obtain ⟨hretarget, hactive⟩ := hasert
      rw [calcNextRequiredDifficulty_of_asert hretarget hactive,
        calcNextRequiredDifficulty_of_asert hretarget hactive, htime]
      simp [hretarget, hactive]
    · have hcongr : calcNextRequiredDifficulty c (tip :: below) header'.timestamp =
          calcNextRequiredDifficulty c (tip :: below) header.timestamp := by
        refine calcNextRequiredDifficulty_congr hreduce (fun lastNode hmem hretarget => ?_) _ _
        cases hmem
        exact fun hactive => hasert ⟨hretarget, hactive⟩
      refine iff_of_true hcongr (.inr ?_)
      rcases Bool.eq_false_or_eq_true c.params.poWNoRetargeting with hno | hretarget
      · exact .inl hno
      · exact .inr (.inl fun hactive => hasert ⟨hretarget, hactive⟩)

/-! ## The OBTC main network -/

namespace MainNet

/-- The main network without checkpoints, as its parameters have it. -/
def chainCtx : ChainCtx :=
  .ofParams obtcMainNetParams (fun _ _ => true) (.ok none) (fun time => toString time)

/-- The first block of the fork, which has the reset difficulty. -/
def anchor : HeaderCtx := ⟨obtcMainNetFirstBlockHeight, 0x1d00ffff, 1800000000⟩

/-- A template for the second block, made one minute after the first, with the difficulty that
ASERT requires then. -/
def template : Header where
  version := 4
  prevBlock := Hash.zero
  merkleRoot := Hash.zero
  timestamp := 1800000060
  bits := 0x1d00e6be
  nonce := 0

end MainNet

open MainNet

/-- **A refreshed template that the node itself rejects.**  The header check accepts the template;
four minutes later the refresh gives it a new time and leaves its difficulty, and the header check
rejects it. -/
theorem refreshed_template_rejected :
    checkBlockHeaderContext chainCtx template anchor [] false false = .ok () ∧
      updateBlockTime chainCtx anchor [] 1800000300 template =
        .ok { template with timestamp := 1800000300 } ∧
      checkBlockHeaderContext chainCtx
          { template with timestamp := 1800000300 } anchor [] false false =
        .error (.rule .errUnexpectedDifficulty
          "block difficulty of 486598334 is not the expected value of 486601127") := by
  decide +kernel

/-- A template made late, when ASERT is at its limit, and refreshed five minutes later. -/
theorem updateBlockTime_required_iff_late :
    updateBlockTime chainCtx anchor [] 1800001500
        { template with timestamp := 1800001200, bits := 0x1d00ffff } =
          .ok { template with timestamp := 1800001500, bits := 0x1d00ffff } ∧
      calcNextRequiredDifficulty chainCtx [anchor] 1800001500 = .ok 0x1d00ffff := by
  have hupdate : updateBlockTime chainCtx anchor [] 1800001500
      { template with timestamp := 1800001200, bits := 0x1d00ffff } =
        .ok { template with timestamp := 1800001500, bits := 0x1d00ffff } := by decide +kernel
  exact ⟨hupdate, (updateBlockTime_required_iff (by decide +kernel) hupdate).2
    (.inr (.inr (.inr (by decide +kernel))))⟩

end Mining

end Obtcd
