import Brainfuck.Proofs.Execution.Faults
import Brainfuck.Proofs.Execution.Lockstep
import Brainfuck.Proofs.Execution.Visits
import Brainfuck.Proofs.Text.Words

/-!
# Longer feeds

More bytes behind those that a machine can read are noticed by one instruction alone, a read that
would have met an empty queue.  So a run that carries out no such read is in lockstep with the run
on the longer feed, whichever policy is in force, and leaves the additional bytes where they were.
-/

namespace Brainfuck

theorem Feed.next?_append {f rest : Feed} {b : UInt8} (h : f.next? = some (b, rest))
    (more : List UInt8) :
    Feed.next? ⟨f.pending ++ more⟩ = some (b, ⟨rest.pending ++ more⟩) := by
  obtain ⟨pending⟩ := f
  cases pending with
  | nil => cases h
  | cons c pending =>
      cases h
      rfl

namespace Machine

def supply (more : List UInt8) (m : Machine) : Machine :=
  { m with feed := ⟨m.feed.pending ++ more⟩ }

def Starves (m : Machine) : Prop :=
  m.code.instrs[m.pc]? = some .get ∧ m.feed.pending = []

variable {m m' after : Machine} {instr : Instr} {bytes more : List UInt8} {n : Nat}

@[simp] theorem tape_supply (more : List UInt8) (m : Machine) : (m.supply more).tape = m.tape := rfl

/-- Only a read from an empty queue notices that there are more bytes. -/
theorem act_supply (hinstr : m.code.instrs[m.pc]? = some instr) (hfed : ¬m.Starves)
    (more : List UInt8) :
    (m.supply more).act instr = ((m.act instr).1.supply more, (m.act instr).2) := by
  cases instr with
  | left =>
      rw [act, act, tape_supply]
      cases m.tape.left? with
      | some tape => rfl
      | none => exact meet_map rfl .left _
  | right =>
      rw [act, act, tape_supply]
      cases m.tape.right? with
      | some tape => rfl
      | none => exact meet_map rfl .right _
  | inc | dec | put => rfl
  | get =>
      cases hnext : m.feed.next? with
      | none => exact absurd ⟨hinstr, Feed.next?_eq_none_iff.1 hnext⟩ hfed
      | some read =>
          have hmore : (m.supply more).feed.next? = some (read.1, ⟨read.2.pending ++ more⟩) :=
            Feed.next?_append hnext more
          rw [act, act, hmore, hnext]
          rfl
  | opening | closing =>
      by_cases hzero : m.tape.cell = 0
      · simp [act, supply, hzero]
      · simp [act, supply, hzero]

theorem lockstep_supply (more : List UInt8) : Lockstep (supply more) Starves where
  code _ := rfl
  pc _ := rfl
  head _ := rfl
  cell _ := rfl
  advance _ := rfl
  act hinstr hfed := act_supply hinstr hfed more

theorem Starves.next_eq_stuck (h : m.Starves) (hstrict : m.policy = .strict) :
    m.next = .stuck (.inputExhausted m.pc) := by
  apply next_of_act_eq_error h.1
  rw [act, Feed.next?_eq_none_iff.2 h.2, meet, hstrict]

theorem starves_of_next_eq_stuck {ip : Nat} (h : m.next = .stuck (.inputExhausted ip)) :
    m.Starves := by
  obtain ⟨_, rfl, hinstr, hempty⟩ := of_next_eq_stuck h
  exact ⟨hinstr, hempty⟩

theorem Starves.conclude_none (h : m.Starves) {result : Except Failure Unit}
    (hconclude : m.next.conclude none = some result) : ∃ cause, m.next = .stuck cause := by
  cases hnext : m.next with
  | done =>
      have hnone := getElem?_eq_none_of_next_eq_done hnext
      rw [h.1] at hnone
      cases hnone
  | stuck cause => exact ⟨cause, rfl⟩
  | step bytes after =>
      rw [hnext] at hconclude
      cases hconclude

end Machine

/-- What is supplied by the text `joined` is what `front` supplies and then what `back` does: for
the first bytes of words there is a blank between the two. -/
inductive FeedMode.Joined (front back : String) : FeedMode → String → Prop where
  | words {b : Char} : Text.isBlank b = true →
      Joined front back .words (front ++ b.toString ++ back)
  | stream : Joined front back .stream (front ++ back)

theorem FeedMode.Joined.pending {front back joined : String} {mode : FeedMode}
    (h : mode.Joined front back joined) :
    (Feed.ofText mode joined).pending =
      (Feed.ofText mode front).pending ++ (Feed.ofText mode back).pending := by
  cases h with
  | words hblank =>
      refine Feed.pending_ofText_words_append front _ back ?_ ?_
      · simpa using hblank
      · simp
  | stream => exact Feed.ofText_stream_append front back

open Machine

theorem Machine.load_supply {source front back joined : String} {config : MachineConfig}
    {m : Machine} (h : load source front config = .ok m)
    (hjoined : config.feedMode.Joined front back joined) :
    load source joined config = .ok (m.supply (Feed.ofText config.feedMode back).pending) := by
  obtain ⟨hpos, code, hparse, rfl⟩ := load_eq_ok_iff.1 h
  refine load_eq_ok_iff.2 ⟨hpos, code, hparse, ?_⟩
  rw [supply, ← hjoined.pending]

/-- Balanced code is loaded with either input on any tape, and calls on the two machines, in the
same mode, with the same budget and the same readings of the cancel flag, compare as follows.  If
the call on the shorter input carries out no read from an empty queue, then at no number of turns do
the calls differ, in what they return or in what they have written, and the second machine is the
first one with what `back` supplies behind all that is left to be read.  Under the strict policy
such a read is what a call reports, so the calls agree unless it reports one. -/
theorem unread_input_changes_nothing {source front back joined : String} {config : MachineConfig}
    (hbalanced : Balanced (brackets source.toList)) (hsize : 0 < config.tapeSize)
    (hjoined : config.feedMode.Joined front back joined) :
    ∃ m m', load source front config = .ok m ∧ load source joined config = .ok m' ∧
      ∀ (schedule : Nat → Bool) (o o' : ScheduledOutlet schedule) (mode : Mode)
        (control : Option Control) (fuel : Nat),
        let r := o.report m mode control fuel
        let p := o'.report m' mode control fuel
        ((∀ v ∈ o.visits m mode control fuel, ¬v.Starves) →
          p.outcome = r.outcome ∧ p.steps = r.steps ∧
          p.machine = r.machine.supply (Feed.ofText config.feedMode back).pending ∧
          o'.output p = o.output r) ∧
        (config.policy = .strict →
          ((∀ v ∈ o.visits m mode control fuel, ¬v.Starves) ↔
            ∀ ip, r.outcome ≠ some (.error (.fault (.inputExhausted ip))))) := by
  obtain ⟨m, hload⟩ := exists_load hbalanced hsize front
  refine ⟨m, _, hload, load_supply hload hjoined,
    fun schedule o o' mode control fuel => ⟨fun hfed => ?_, fun hstrict => ?_⟩⟩
  · refine o.report_of_lockstep (lockstep_supply _) o' ?_ fun hreturns hstarves hverdict => ?_
    · exact fun k hk bytes mid hsteps => hfed mid (o.mem_visits_of_steps hsteps hk)
    · obtain ⟨result, hresult⟩ := Option.ne_none_iff_exists'.1 hreturns
      have hconclude := (o.reaches m mode control fuel).1.conclude_of_result hresult
      rw [Nat.zero_add, hverdict] at hconclude
      obtain ⟨cause, hstuck⟩ := hstarves.conclude_none hconclude
      refine o.verdict_ne_none_of_stuck hstuck hreturns (fun hfault => ?_) hverdict
      exact hfed _ (o.mem_visits_of_fault hfault) hstarves
  · constructor
    · intro hfed ip hfault
      exact hfed _ (o.mem_visits_of_fault hfault)
        (starves_of_next_eq_stuck (ScheduledOutlet.next_eq_stuck_of_fault hfault))
    · intro hfault v hv hstarves
      obtain ⟨_, _, hsteps⟩ := o.exists_steps_of_mem_visits hv
      have hpolicy : v.policy = .strict := by
        rw [hsteps.policy_eq, policy_of_load hload, hstrict]
      exact hfault v.pc (o.outcome_of_mem_visits hv (hstarves.next_eq_stuck hpolicy))

/-- A machine that echoes two words of the input, with a third one behind a wide blank and
without. -/
theorem third_word_left_in_feed :
    ∃ m m', load ",.,." "ab cd" { tapeSize := 1 } = .ok m ∧
      load ",.,." "ab cd\u2003ef" { tapeSize := 1 } = .ok m' ∧
      let o := ScheduledOutlet.counting fun _ => false
      let p := o.report m' .plain none 9
      p.outcome = some (.ok ()) ∧ o.output p = [97, 99] ∧ p.machine.feed.pending = [101] := by
  have hbalanced : Balanced (brackets ",.,.".toList) := .nil
  have hsize : 0 < ({ tapeSize := 1 } : MachineConfig).tapeSize := Nat.one_pos
  have hjoined : FeedMode.Joined "ab cd" "ef" .words "ab cd\u2003ef" := .words (b := '\u2003') rfl
  obtain ⟨m, m', hshort, hlong, hcompare⟩ := unread_input_changes_nothing hbalanced hsize hjoined
  have hm := Except.ok.inj (hshort.symm.trans rfl)
  obtain ⟨hsame, hfed⟩ := hcompare _ (.counting fun _ => false) (.counting fun _ => false)
    .plain none 9
  refine ⟨m, m', hshort, hlong, ?_⟩
  subst hm
  obtain ⟨houtcome, _, hmachine, houtput⟩ := hsame ((hfed rfl).2 fun ip h => by cases h)
  refine ⟨houtcome, houtput, ?_⟩
  exact congrArg (fun m : Machine => m.feed.pending) hmachine

end Brainfuck
