import PagePress.Proofs.Remote.Breaker
import PagePress.Settings.Basic

namespace PagePress

namespace Duration

def total (duration : Duration) : Int := 1000000000 * duration.seconds.toNat + duration.nanos.val

-- The clock counts milliseconds, and a signed word holds them.
def Fits (duration : Duration) : Prop :=
  1000000 ∣ duration.nanos.val ∧ duration.millis < 2 ^ 63

theorem total_eq (duration : Duration) :
    duration.total = 1000000 * duration.millis + (duration.nanos.val % 1000000 : Nat) := by
  rw [total, millis]
  omega

theorem fits_ofSeconds {seconds : UInt64} :
    (ofSeconds seconds).Fits ↔ seconds.toNat ≤ 9223372036854775 := by
  rw [Fits, millis, ofSeconds]
  simp only [Fin.val_zero, dvd_zero, true_and]
  omega

end Duration

theorem BreakerConfig.resetMillis_lt (config : BreakerConfig) : config.resetMillis < 2 ^ 63 :=
  Int.bmod_lt (by decide)

theorem BreakerConfig.resetMillis_eq {config : BreakerConfig}
    (small : config.reset.millis < 2 ^ 63) :
    config.resetMillis = config.reset.millis :=
  Int.bmod_eq_of_le (by omega) (by omega)

theorem BreakerConfig.resetMillis_wrapped (config : BreakerConfig) :
    config.resetMillis =
      config.reset.millis - 18446744073709551616 * Int.bdiv config.reset.millis (2 ^ 64) :=
  Int.bmod_eq_self_sub_mul_bdiv ..

namespace Breaker

variable {breaker : Breaker} {start now : Int}

def watched (breaker : Breaker) (looks : List Int) : Breaker :=
  looks.foldl (fun breaker now => (breaker.look now).2) breaker

structure OpenSince (start : Int) (breaker : Breaker) : Prop where
  opened : breaker.state = .opened
  changed : breaker.changedAt = start

theorem openSince_recordFailure (opened : (breaker.recordFailure start).state = .opened) :
    (breaker.recordFailure start).OpenSince start := by
  refine ⟨opened, ?_⟩
  cases state : breaker.state with
  | closed =>
    rw [recordFailure, state] at opened ⊢
    dsimp only at opened ⊢
    split at opened
    · rename_i reached
      rw [if_pos reached]
      rfl
    · cases opened
  | opened => rw [recordFailure_opened state]
  | halfOpen =>
    rw [recordFailure_halfOpen state]
    rfl

theorem OpenSince.rested_iff (since : breaker.OpenSince start) :
    breaker.Rested now ↔ start + breaker.config.resetMillis ≤ now := by
  rw [Rested, since.changed]
  constructor
  · rintro ⟨-, due⟩
    omega
  · intro due
    exact ⟨since.opened, by omega⟩

theorem watched_of_ne_opened (passes : breaker.state ≠ .opened) (looks : List Int) :
    breaker.watched looks = breaker := by
  induction looks with
  | nil => rfl
  | cons first rest ih =>
    have same : (breaker.look first).2 = breaker := settle_of_ne_opened passes
    rw [watched, List.foldl_cons, same]
    exact ih

theorem OpenSince.allow_watched (since : breaker.OpenSince start) {looks : List Int}
    (later : ∀ look ∈ looks, look ≤ now) :
    ((breaker.watched looks).allow now).1 = true ↔ start + breaker.config.resetMillis ≤ now := by
  induction looks with
  | nil =>
    rw [← since.rested_iff]
    by_cases rested : breaker.Rested now
    · simp [watched, allow, settle_rested rested, rested]
    · simp [watched, allow, settle_not_rested rested, rested, since.opened]
  | cons first rest ih =>
    obtain ⟨before, behind⟩ := List.forall_mem_cons.mp later
    rw [watched, List.foldl_cons, look]
    by_cases rested : breaker.Rested first
    · rw [settle_rested rested]
      have due : start + breaker.config.resetMillis ≤ now :=
        (since.rested_iff.mp rested).trans before
      have passes : ({ breaker with state := .halfOpen, successes := 0, changedAt := first } :
          Breaker).state ≠ .opened := nofun
      have still := watched_of_ne_opened passes rest
      rw [watched] at still
      rw [still, allow, settle_of_ne_opened passes]
      exact iff_of_true rfl due
    · rw [settle_not_rested rested]
      exact ih behind

end Breaker

namespace BreakerConfig

-- Whatever is done between, a request passes a circuit that opened, or had a failure recorded while
-- it was open, exactly from the time that is due.
def AllowsFrom (config : BreakerConfig) (due : Int → Int → Prop) : Prop :=
  ∀ (breaker : Breaker) (start : Int) (looks : List Int) (now : Int), breaker.config = config →
    (breaker.recordFailure start).state = .opened →
    (start :: (looks ++ [now])).Pairwise (· ≤ ·) →
    ((((breaker.recordFailure start).watched looks).allow now).1 = true ↔ due start now)

def Waited (config : BreakerConfig) (start now : Int) : Prop :=
  1000000 * start + config.reset.total ≤ 1000000 * now

theorem allowsFrom_resetMillis (config : BreakerConfig) :
    config.AllowsFrom fun start now => start + config.resetMillis ≤ now := by
  intro breaker start looks now same opened sorted
  have later : ∀ look ∈ looks, look ≤ now := fun look member =>
    (List.pairwise_append.mp (List.pairwise_cons.mp sorted).2).2.2 look member now (by simp)
  have since := Breaker.openSince_recordFailure opened
  rw [since.allow_watched later, Breaker.config_recordFailure, same]

def onTrial (config : BreakerConfig) : Breaker := ⟨config, .halfOpen, 0, 0, 0⟩

theorem AllowsFrom.due_iff {config : BreakerConfig} {due other : Int → Int → Prop}
    (allows : config.AllowsFrom due) (also : config.AllowsFrom other) {now : Int}
    (later : 0 ≤ now) :
    due 0 now ↔ other 0 now := by
  have sorted : (0 :: ([] ++ [now])).Pairwise (· ≤ ·) := by simpa using later
  exact (allows config.onTrial 0 [] now rfl rfl sorted).symm.trans
    (also config.onTrial 0 [] now rfl rfl sorted)

theorem allowsFrom_waited_iff {config : BreakerConfig} :
    config.AllowsFrom config.Waited ↔ config.reset.Fits := by
  have total := config.reset.total_eq
  constructor
  · intro waits
    have agree (now : Int) (later : 0 ≤ now) :
        0 + config.resetMillis ≤ now ↔ 1000000 * 0 + config.reset.total ≤ 1000000 * now :=
      config.allowsFrom_resetMillis.due_iff waits later
    have same : config.resetMillis = config.reset.millis := by
      rcases Nat.eq_zero_or_pos config.reset.millis with zero | pos
      · exact resetMillis_eq (by omega)
      · -- The wait ends within a millisecond of the whole ones, and what is cut off is whole words.
        have soon := agree (config.reset.millis - 1) (by omega)
        have late := agree (config.reset.millis + 1) (by omega)
        have wrapped := config.resetMillis_wrapped
        omega
    have whole := agree config.reset.millis (by omega)
    have small := config.resetMillis_lt
    exact ⟨Nat.dvd_of_mod_eq_zero (by omega), by omega⟩
  · rintro ⟨whole, small⟩
    have same : config.Waited = fun start now => start + config.resetMillis ≤ now := by
      funext start now
      rw [Waited, total, resetMillis_eq small, Nat.mod_eq_zero_of_dvd whole]
      exact propext (by omega)
    rw [same]
    exact config.allowsFrom_resetMillis

-- An open circuit blocks for the wait as a signed word has it, which is all of the wait exactly
-- when that fits. Of a setting in seconds this is a bound.
theorem blocks_as_configured (config : BreakerConfig) (settings : RemoteSettings) :
    (config.AllowsFrom fun start now => start + config.resetMillis ≤ now) ∧
    (config.AllowsFrom config.Waited ↔ config.reset.Fits) ∧
    (settings.breaker.AllowsFrom settings.breaker.Waited ↔
      settings.resetSeconds.toNat ≤ 9223372036854775) :=
  ⟨config.allowsFrom_resetMillis, allowsFrom_waited_iff,
    allowsFrom_waited_iff.trans Duration.fits_ofSeconds⟩

theorem not_allowsFrom_waited_longest :
    let settings : RemoteSettings := { resetSeconds := 18446744073709551615 }
    ¬settings.breaker.AllowsFrom settings.breaker.Waited := by
  intro settings waits
  have passes := (waits settings.breaker.onTrial 0 [] 0 rfl rfl (by simp)).mp (by decide +kernel)
  have early : ¬settings.breaker.Waited 0 0 := by
    rw [BreakerConfig.Waited]
    decide
  exact early passes

end BreakerConfig
end PagePress
