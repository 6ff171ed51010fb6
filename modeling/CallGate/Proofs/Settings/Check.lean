import CallGate.Settings

/-!
# Settings that can be used

* `Settings.check_eq_ok_iff`: settings pass their check exactly when both capacities lie between
  the smallest useful and the largest allowed one, and all numbers differ.
-/

namespace CallGate.Settings

/-- A buffer passes if its capacity is not above the largest. -/
theorem checkMaximum_eq_ok_iff (settings : Settings) (buffer : Buffer) :
    settings.checkMaximum buffer = .ok () ↔ settings.capacity buffer ≤ Buffer.maximum := by
  rw [checkMaximum]
  split <;> simp [*]

/-- A buffer passes if it has room for its smallest message. -/
theorem checkMinimum_eq_ok_iff (settings : Settings) (buffer : Buffer) :
    settings.checkMinimum buffer = .ok () ↔ buffer.minimum ≤ settings.capacity buffer := by
  rw [checkMinimum]
  split <;> simp [*]

/-- The numbers pass if no two of them are the same. -/
theorem checkNumbering_eq_ok_iff (settings : Settings) :
    settings.checkNumbering = .ok () ↔ settings.numbering.numbers.Nodup := by
  rw [checkNumbering, ← Numbering.duplicate?_eq_none_iff]
  split <;> simp [*]

/-- A check after another one passes when both do. -/
theorem bind_eq_ok_iff {first second : Except SettingsFault Unit} :
    (first >>= fun _ => second) = .ok () ↔ first = .ok () ∧ second = .ok () := by
  cases first <;> simp [bind, Except.bind]

/-- Settings pass their check exactly when both capacities are in range and all numbers differ. -/
theorem check_eq_ok_iff (settings : Settings) :
    settings.check = .ok () ↔
      (125 ≤ settings.callCapacity ∧ settings.callCapacity ≤ 16 * 1024 * 1024) ∧
      (8 ≤ settings.logCapacity ∧ settings.logCapacity ≤ 16 * 1024 * 1024) ∧
      settings.numbering.numbers.Nodup := by
  have hcall : Buffer.call.minimum = 125 := rfl
  have hlog : Buffer.log.minimum = 8 := rfl
  simp only [check, bind_eq_ok_iff, checkMaximum_eq_ok_iff, checkMinimum_eq_ok_iff,
    checkNumbering_eq_ok_iff, hcall, hlog, capacity, Buffer.maximum]
  constructor
  · rintro ⟨hcallMax, hlogMax, hcallMin, hlogMin, hnumbers⟩
    exact ⟨⟨hcallMin, hcallMax⟩, ⟨hlogMin, hlogMax⟩, hnumbers⟩
  · rintro ⟨⟨hcallMin, hcallMax⟩, ⟨hlogMin, hlogMax⟩, hnumbers⟩
    exact ⟨hcallMax, hlogMax, hcallMin, hlogMin, hnumbers⟩

end CallGate.Settings
