import Brainfuck.Proofs.Execution.Rows
import Brainfuck.Proofs.Execution.Transcript

/-!
# Traces

The rows of a run are decided by its machine, as all that it writes is.  A run in either mode writes
them out one after another, each in the way of its mode, so the bytes of a plain run are found in
the rows of the other: they are the cells at which a `.` was.
-/

namespace Brainfuck

namespace Machine

/-- The rows of the next `n` instructions from `m` on, if the first of them is number `i`. -/
def trace : Nat → Nat → Machine → List (Site × Action)
  | _, 0, _ => []
  | i, n + 1, m =>
    match m.code.instrs[m.pc]? with
    | none => []
    | some instr =>
      match m.act instr with
      | (_, .error _) => []
      | (after, .ok action) => (m.site i instr, action) :: trace (i + 1) n after.advance

variable {m m' after : Machine} {instr : Instr} {action : Action} {bytes : List UInt8} {n : Nat}

theorem trace_succ (hinstr : m.code.instrs[m.pc]? = some instr)
    (hact : m.act instr = (after, .ok action)) (i n : Nat) :
    trace i (n + 1) m = (m.site i instr, action) :: trace (i + 1) n after.advance := by
  simp only [trace, hinstr, hact]

theorem length_trace (h : Steps n m bytes m') (i : Nat) : (trace i n m).length = n := by
  induction h generalizing i with
  | refl m => rfl
  | head hnext _ ih =>
      obtain ⟨instr, after, action, hinstr, hact, _, rfl⟩ := exists_of_next_eq_step hnext
      rw [trace_succ hinstr hact, List.length_cons, ih]

theorem transcript_eq_flatMap_trace (h : Steps n m bytes m') (mode : Mode) (i : Nat) :
    transcript mode i n m = (trace i n m).flatMap fun r => (mode.pieces r.1 r.2).flatten := by
  induction h generalizing i with
  | refl m => rfl
  | head hnext _ ih =>
      obtain ⟨instr, after, action, hinstr, hact, _, rfl⟩ := exists_of_next_eq_step hnext
      rw [transcript_succ hnext, trace_succ hinstr hact, List.flatMap_cons, ih,
        shown_of_act_eq_ok mode i hinstr hact]

theorem exists_getElem?_trace (h : Steps n m bytes m') (i : Nat) {j : Nat} (hj : j < n) :
    ∃ front mid instr after action,
      Steps j m front mid ∧ mid.code.instrs[mid.pc]? = some instr ∧
      mid.act instr = (after, .ok action) ∧
      (trace i n m)[j]? = some (mid.site (i + j) instr, action) := by
  induction h generalizing i j with
  | refl m => exact absurd hj (Nat.not_lt_zero j)
  | head hnext _ ih =>
      obtain ⟨instr, after, action, hinstr, hact, _, rfl⟩ := exists_of_next_eq_step hnext
      rw [trace_succ hinstr hact]
      cases j with
      | zero => exact ⟨_, _, instr, after, action, .refl _, hinstr, hact, rfl⟩
      | succ j =>
          obtain ⟨front, mid, instr', after', action', hsteps, hinstr', hact', hrow⟩ :=
            ih (i + 1) (Nat.lt_of_succ_lt_succ hj)
          rw [Nat.add_right_comm, Nat.add_assoc] at hrow
          exact ⟨_, mid, instr', after', action', .head hnext hsteps, hinstr', hact', hrow⟩

theorem bytes_of_meet_eq_ok {cause : Fault} (h : m.meet instr cause = (after, .ok action)) :
    action.bytes = [] := by
  unfold meet at h
  split at h
  · cases h
  · cases h
    rfl

theorem bytes_of_act_eq_ok (hact : m.act instr = (after, .ok action)) :
    action.bytes = if instr = .put then [m.tape.cell] else [] := by
  cases instr with
  | put | inc | dec =>
      cases hact
      rfl
  | left | right | get =>
      rw [act] at hact
      split at hact
      · cases hact
        rfl
      · exact bytes_of_meet_eq_ok hact
  | opening | closing =>
      rw [act] at hact
      split at hact <;> cases hact <;> rfl

end Machine

def emittedCells (sites : List Site) : List UInt8 :=
  (sites.filter fun site => site.instr = .put).map Site.cell

theorem emittedCells_cons (site : Site) (sites : List Site) :
    emittedCells (site :: sites) =
      (if site.instr = .put then [site.cell] else []) ++ emittedCells sites := by
  unfold emittedCells
  by_cases hput : site.instr = .put
  · simp [hput]
  · simp [hput]

namespace Machine

theorem emittedCells_trace (h : Steps n m bytes m') (i : Nat) :
    emittedCells ((trace i n m).map Prod.fst) = bytes := by
  induction h generalizing i with
  | refl m => rfl
  | head hnext _ ih =>
      obtain ⟨instr, after, action, hinstr, hact, rfl, rfl⟩ := exists_of_next_eq_step hnext
      rw [trace_succ hinstr hact, List.map_cons, emittedCells_cons, ih, bytes_of_act_eq_ok hact]
      rfl

end Machine

open Machine

/-- A step table of any rows is read back as what they were written for, whatever the numbers in it
are.  A call that writes one and a plain call, from the same machine, with the same budget and the
same readings of the cancel flag, come to the same place at any number of turns.  What the first one
has written then is the table with one row for each instruction that it has completed: the turn that
ends it, with a fault or by its controls, writes none.  Row number `i` shows the machine of the
plain call after `i` turns, and the bytes of the plain call are the cells in the rows of a `.`. -/
theorem step_table_shows_plain_run :
    (∀ rows : List (Site × Action),
      readTable? (Text.bytes (tableText rows)) = some (rows.map Prod.fst)) ∧
    ∀ (m : Machine) (schedule : Nat → Bool) (table plain : ScheduledOutlet schedule)
      (control : Option Control) (fuel : Nat),
      let r := table.report m .table control fuel
      let p := plain.report m .plain control
      (p fuel).outcome = r.outcome ∧ (p fuel).steps = r.steps ∧ (p fuel).machine = r.machine ∧
      table.output (table.report m .table control r.steps) = table.output r ∧
      ∃ rows : List (Site × Action),
        rows.length = r.steps ∧ table.output r = Text.bytes (tableText rows) ∧
        (∀ line ∈ tableLines rows, '\n' ∉ line.toList) ∧
        (∀ i < r.steps, ∃ instr after action,
          (p i).outcome = none ∧ (p i).steps = i ∧
          (p i).machine.code.instrs[(p i).machine.pc]? = some instr ∧
          (p i).machine.act instr = (after, .ok action) ∧
          (p (i + 1)).machine = after.advance ∧
          rows[i]? = some ((p i).machine.site i instr, action)) ∧
        readTable? (table.output r) = some (rows.map Prod.fst) ∧
        emittedCells (rows.map Prod.fst) = plain.output (p fuel) := by
  refine ⟨readTable?_tableText, fun m schedule table plain control fuel => ?_⟩
  obtain ⟨hreaches, htable⟩ := table.reaches m .table control fuel
  obtain ⟨houtcome, hcount, hmachine, hplain⟩ := plain.report_of_reaches hreaches .plain
  obtain ⟨bytes, hsteps⟩ := hreaches.steps
  -- From here on the call is where it comes to, after `r.steps` instructions.
  generalize table.report m .table control fuel = r at *
  have hrows : table.output r = Text.bytes (tableText (trace 0 r.steps m)) := by
    rw [htable, bytes_tableText, transcript_eq_flatMap_trace hsteps]
  refine ⟨houtcome, hcount, hmachine, ?_, trace 0 r.steps m, length_trace hsteps 0, hrows,
    fun line => newline_notMem_of_mem_tableLines, fun i hi => ?_, ?_, ?_⟩
  · -- With as many turns as instructions are completed, the one that ends the call is left out.
    rw [htable]
    exact (table.report_of_reaches_later hreaches (Nat.le_refl _) hsteps .table).2.2.2
  · obtain ⟨front, mid, instr, after, action, hfront, hinstr, hact, hrow⟩ :=
      exists_getElem?_trace hsteps 0 hi
    have hnext := hfront.trans (.one (next_of_act_eq_ok hinstr hact))
    obtain ⟨hnone, hthere, hmid, _⟩ :=
      plain.report_of_reaches_later hreaches (Nat.le_of_lt hi) hfront .plain
    obtain ⟨_, _, hafter, _⟩ := plain.report_of_reaches_later hreaches hi hnext .plain
    rw [Nat.zero_add] at hrow
    refine ⟨instr, after, action, hnone, hthere, ?_⟩
    rw [hmid]
    exact ⟨hinstr, hact, hafter, hrow⟩
  · rw [hrows, readTable?_tableText]
  · rw [emittedCells_trace hsteps, hplain, transcript_plain hsteps]
    rfl

end Brainfuck
