import BdkFreertos.FakeClock

/-!
# Ticks added at once

After power save the ticks that were slept through are added at once.  Both ways of counting are
measured by the ticks of the running second: the counters hold the quotient and the remainder of
what has elapsed by the ticks of a second, whether it came tick by tick or not.
-/

namespace BdkFreertos.FakeClock

variable {clock after : Clock} {ticks : ℕ}

theorem Later.unique {first second : Clock} (first_later : Later clock first ticks)
    (second_later : Later clock second ticks) :
    first.currentClock = second.currentClock ∧ first.currentSeconds = second.currentSeconds ∧
      first.secondCountdown = second.secondCountdown := by
  refine ⟨?_, ?_, ?_⟩
  · exact UInt64.toNat_inj.mp (first_later.currentClock.trans second_later.currentClock.symm)
  · exact UInt32.toNat_inj.mp (first_later.currentSeconds.trans second_later.currentSeconds.symm)
  · exact UInt32.toNat_inj.mp (first_later.secondCountdown.trans second_later.secondCountdown.symm)

/-! ## Tick by tick -/

theorem fclkHdl_of_settled (settled : clock.increaseTick = 0) :
    fclkHdl clock = countTick { clock with needPass := clock.needPass + 1 } := by
  have asked : mcuPsNeedPstick clock =
      ({ clock with needPass := clock.needPass + 1 }, (fclkDurationMs : ℤ)) := by
    rw [mcuPsNeedPstick]
    split
    · rw [mcuPsCalIncreaseTick, if_pos (Or.inr settled)]
    · rfl
  rw [fclkHdl_eq, asked, if_neg duration_ne_zero]

theorem later_iterate_fclkHdl (range : CountdownInRange clock) (settled : clock.increaseTick = 0)
    (ticks : ℕ) : Later clock (fclkHdl^[ticks] clock) ticks := by
  induction ticks with
  | zero => exact .refl range
  | succ ticks induction =>
      rw [Function.iterate_succ_apply',
        fclkHdl_of_settled (iterate_fclkHdl_of_settled settled ticks).1]
      have counted : Later clock { fclkHdl^[ticks] clock with
          needPass := (fclkHdl^[ticks] clock).needPass + 1 } ticks :=
        ⟨induction.currentClock, induction.currentSeconds, induction.secondCountdown⟩
      exact counted.countTick

/-! ## At once -/

theorem later_fclkUpdateTick (range : CountdownInRange clock) (tick : UInt32) :
    Later clock (fclkUpdateTick clock tick) tick.toNat := by
  rw [fclkUpdateTick]
  split
  · rename_i nothing
    rw [nothing]
    exact .refl range
  · have cleared : CountdownInRange (mcuPsIncreaseClr clock) := range.congr rfl
    obtain ⟨clock_eq, seconds_eq, countdown_eq⟩ := later_fclkFreertosUpdateTick cleared tick
    exact ⟨clock_eq, seconds_eq, countdown_eq⟩

/-- Adding any number of ticks at once leaves the counters as that many tick interrupts without a
debt would. -/
theorem bulk_update_eq_ticks (range : CountdownInRange clock) (tick : UInt32) :
    let bulk := fclkUpdateTick clock tick
    let ticked := fclkHdl^[tick.toNat] { clock with increaseTick := 0 }
    bulk.currentClock = ticked.currentClock ∧ bulk.currentSeconds = ticked.currentSeconds ∧
      bulk.secondCountdown = ticked.secondCountdown := by
  intro bulk ticked
  have settled_range : CountdownInRange { clock with increaseTick := 0 } := range.congr rfl
  obtain ⟨clock_eq, seconds_eq, countdown_eq⟩ :=
    later_iterate_fclkHdl settled_range rfl tick.toNat
  exact (later_fclkUpdateTick range tick).unique ⟨clock_eq, seconds_eq, countdown_eq⟩

/-- Two ticks across the end of a second. -/
theorem bulk_update_eq_ticks_across_second :
    let clock := { initial with secondCountdown := 1 }
    let bulk := fclkUpdateTick clock 2
    let ticked := fclkHdl^[2] { clock with increaseTick := 0 }
    (1 ≤ clock.secondCountdown ∧ clock.secondCountdown ≤ fclkSecond) ∧
      bulk.currentClock = ticked.currentClock ∧ bulk.currentSeconds = ticked.currentSeconds ∧
      bulk.secondCountdown = ticked.secondCountdown :=
  ⟨by decide, bulk_update_eq_ticks (by unfold CountdownInRange; decide) 2⟩

end BdkFreertos.FakeClock
