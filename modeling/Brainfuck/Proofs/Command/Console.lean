import Brainfuck.Command.Console
import Brainfuck.Proofs.Execution.Outlet

/-!
# The console of a run

A console whose device takes everything is an open outlet.  What has been written to it is what has
been sent and, behind that, what is still in the buffer.  Bytes stay in their order because a piece
overtakes the buffer only when the buffer is empty, and a flush leaves nothing behind.
-/

namespace Brainfuck

theorem Device.eq_of_refusal_eq_none {device : Device} (h : device.refusal = none) :
    device = {} := by
  cases device
  cases h
  rfl

namespace Console

variable {device : Device}

/-- All bytes that have been written, sent or not. -/
def written (c : Console) : List UInt8 :=
  c.sent.toList ++ c.buffer.toList

theorem written_of_buffer_eq_empty {c : Console} (h : c.buffer = #[]) :
    c.written = c.sent.toList := by
  rw [written, h, Array.toList_empty, List.append_nil]

theorem exists_flush (h : device.refusal = none) (c : Console) :
    ∃ c', c.flush device = (c', .ok ()) ∧ c'.buffer = #[] ∧ c'.written = c.written := by
  by_cases hempty : c.buffer = #[]
  · exact ⟨c, by simp [flush, hempty], hempty, rfl⟩
  · refine ⟨{ c with buffer := #[], sent := c.sent ++ c.buffer }, ?_, rfl, ?_⟩
    · simp [flush, hempty, h]
    · simp [written]

theorem exists_keep (h : device.refusal = none) (c : Console) {bs : List UInt8}
    (hroom : bs.length < bufferSize ∨ c.buffer = #[]) :
    ∃ c', c.keep device bs = (c', .ok ()) ∧ c'.written = c.written ++ bs := by
  by_cases hsmall : bs.length < bufferSize
  · exact ⟨{ c with buffer := c.buffer ++ bs }, by simp [keep, hsmall], by simp [written]⟩
  · have hempty : c.buffer = #[] := hroom.resolve_left hsmall
    exact ⟨{ c with sent := c.sent ++ bs }, by simp [keep, hsmall, h], by simp [written, hempty]⟩

theorem exists_write (h : device.refusal = none) (c : Console) (bs : List UInt8) :
    ∃ c', c.write device bs = (c', .ok ()) ∧ c'.written = c.written ++ bs := by
  by_cases hfits : bs.length ≤ bufferSize - c.buffer.size
  · have hroom : bs.length < bufferSize ∨ c.buffer = #[] := by
      have hpos : 0 < bufferSize := by decide
      by_cases hsmall : bs.length < bufferSize
      · exact .inl hsmall
      · exact .inr (Array.eq_empty_of_size_eq_zero (by omega))
    rw [write, if_pos hfits]
    exact c.exists_keep h hroom
  · obtain ⟨c₁, hflush, hempty, hsame⟩ := c.exists_flush h
    rw [write, if_neg hfits, hflush, ← hsame]
    exact c₁.exists_keep h (.inr hempty)

theorem accepting_host (h : device.refusal = none) (alarm : Option Nat) :
    (host device alarm).Accepting written where
  write := exists_write h
  flush c := by
    obtain ⟨c', hflush, _, hsame⟩ := c.exists_flush h
    exact ⟨c', hflush, hsame⟩
  poll _ := rfl
  passedOver _ _ := rfl

/-- A loop that has ended leaves nothing in the buffer. -/
theorem buffer_close (h : device.refusal = none) (alarm : Option Nat) {p : Progress Console}
    {result : Except Failure Unit} (hresult : p.result = some result) :
    (p.close (host device alarm)).host.buffer = #[] := by
  obtain ⟨c', hflush, hempty, _⟩ := p.host.exists_flush h
  have hclosed : (host device alarm).flush p.host = (c', .ok ()) := hflush
  simp only [Progress.close, hresult, hclosed]
  exact hempty

theorem buffer_eq_empty_of_outcome {alarm : Option Nat} {m : Machine} {mode : Mode}
    {control : Option Control} {fuel : Nat} {c : Console} {result : Except Failure Unit}
    (h : (m.run (host {} alarm) mode control fuel c).outcome = some result) :
    (m.run (host {} alarm) mode control fuel c).host.buffer = #[] := by
  rw [Machine.run] at h ⊢
  obtain ⟨houtcome, _, _⟩ := Machine.close_of_accepting (accepting_host rfl alarm)
    (m.start (host {} alarm) mode control fuel c)
  exact buffer_close rfl alarm (houtcome.symm.trans h)

/-! ## The cancel flag -/

theorem checks_flush (device : Device) (c : Console) : (c.flush device).1.checks = c.checks := by
  unfold flush
  split
  · rfl
  · split <;> rfl

theorem checks_keep (device : Device) (c : Console) (bs : List UInt8) :
    (c.keep device bs).1.checks = c.checks := by
  unfold keep
  split
  · rfl
  · split <;> rfl

theorem checks_write (device : Device) (c : Console) (bs : List UInt8) :
    (c.write device bs).1.checks = c.checks := by
  have hflush := c.checks_flush device
  unfold write
  split
  · exact c.checks_keep device bs
  · split
    · next hrefused => rwa [hrefused] at hflush
    · next c₁ hflushed =>
      rw [hflushed] at hflush
      exact (c₁.checks_keep device bs).trans hflush

def isRaised (alarm : Option Nat) (i : Nat) : Bool :=
  alarm.any (· ≤ i)

theorem scheduled_host (device : Device) (alarm : Option Nat) :
    (host device alarm).Scheduled (isRaised alarm) fun i c => c.checks = i where
  poll hseen := by
    subst hseen
    exact ⟨rfl, rfl⟩
  write {_ c} bs hseen := (c.checks_write device bs).trans hseen
  passedOver _ hseen := hseen

def outlet (alarm : Option Nat) : ScheduledOutlet (isRaised alarm) where
  host := host {} alarm
  written := written
  start := {}
  accepting := accepting_host rfl alarm
  seen i c := c.checks = i
  scheduled := scheduled_host {} alarm
  ready := rfl

end Console

end Brainfuck
