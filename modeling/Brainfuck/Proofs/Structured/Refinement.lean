import Brainfuck.Proofs.Execution.Course
import Brainfuck.Proofs.Structured.Simulation

/-!
# Machines evaluate blocks

A machine that jumps through its table does what the evaluation of its block says.  From an
evaluation to the machine the induction is on the derivation.  A jump back from the end of a loop
lands on its first bracket and goes on in the body, where a machine that has just come to the loop
goes too, so a machine may stand at a loop in either way.  From the machine to an evaluation the
induction is on the number of instructions that it still completes.
-/

namespace Brainfuck

structure Stands (policy : Policy) (k : Nat) (b : Block) (m : Machine) : Prop where
  linked : m.IsLinked
  policy : m.policy = policy
  code : Occurs m.code k b.instrs
  entered : b.Entered k m.pc

/-- The machine shows the ending `e` of a block that stops at index `stop`. -/
def Ending.Shown (stop : Nat) (m : Machine) (out : List UInt8) : Ending → Prop
  | .ended s => m.pc = stop ∧ m.store out = s
  | .faulted cause s => m.next = .stuck cause ∧ m.store out = s

namespace Machine

/-- After some completed instructions the machine shows `e`. -/
def Attains (m : Machine) (out : List UInt8) (stop : Nat) (e : Ending) : Prop :=
  ∃ n bytes m', Steps n m bytes m' ∧ e.Shown stop m' (out ++ bytes)

end Machine

open Machine

variable {policy : Policy} {k n stop : Nat} {a : Atom} {b body rest : Block} {m m' : Machine}
  {bytes out : List UInt8} {s : Store} {e : Ending}

theorem Machine.Attains.after (hsteps : Steps n m bytes m') (h : m'.Attains (out ++ bytes) stop e) :
    m.Attains out stop e := by
  obtain ⟨j, more, m'', hmore, hshown⟩ := h
  exact ⟨n + j, bytes ++ more, m'', hsteps.trans hmore, by rwa [← List.append_assoc]⟩

theorem Machine.Attains.after_silent (hnext : m.next = .step [] m') (h : m'.Attains out stop e) :
    m.Attains out stop e := by
  refine .after (.one hnext) ?_
  rwa [List.append_nil]

namespace Stands

theorem of_steps {b' : Block} {k' : Nat} (h : Stands policy k b m) (hsteps : Steps n m bytes m')
    (hcode : Occurs m.code k' b'.instrs) (hpc : b'.Entered k' m'.pc) :
    Stands policy k' b' m' where
  linked := by
    rw [IsLinked, hsteps.code_eq]
    exact h.linked
  policy := hsteps.policy_eq.trans h.policy
  code := by
    rw [hsteps.code_eq]
    exact hcode
  entered := hpc

theorem pc_atom (h : Stands policy k (.atom a rest) m) : m.pc = k :=
  h.entered

theorem instr_atom (h : Stands policy k (.atom a rest) m) :
    m.code.instrs[m.pc]? = some a.toInstr := by
  rw [h.pc_atom]
  exact h.code.getElem?

theorem rest_atom (h : Stands policy k (.atom a rest) m) (hnext : m.next = .step bytes m')
    (hpc : m'.pc = m.pc + 1) : Stands policy (k + 1) rest m' := by
  refine h.of_steps (.one hnext) h.code.tail ?_
  rw [hpc, h.pc_atom]
  exact Block.entered_first (k + 1) rest

theorem leave (h : Stands policy k (.loop body rest) m) (hcell : (m.store out).cell = 0) :
    ∃ m', m.next = .step [] m' ∧ m'.store out = m.store out ∧
      Stands policy (k + body.size + 2) rest m' := by
  rw [cell_store] at hcell
  obtain ⟨m', hnext, hstore, hpc⟩ := next_of_loop h.linked h.code h.entered
  rw [if_pos hcell] at hpc
  refine ⟨m', hnext, hstore out, h.of_steps (.one hnext) (Block.occurs_rest h.code) ?_⟩
  rw [hpc]
  exact Block.entered_first _ rest

theorem enter (h : Stands policy k (.loop body rest) m) (hcell : (m.store out).cell ≠ 0) :
    ∃ m', m.next = .step [] m' ∧ m'.store out = m.store out ∧
      Stands policy (k + 1) body m' := by
  rw [cell_store] at hcell
  obtain ⟨m', hnext, hstore, hpc⟩ := next_of_loop h.linked h.code h.entered
  rw [if_neg hcell] at hpc
  refine ⟨m', hnext, hstore out, h.of_steps (.one hnext) (Block.occurs_body h.code) ?_⟩
  rw [hpc]
  exact Block.entered_first _ body

theorem again (h : Stands policy k (.loop body rest) m) (hsteps : Steps n m bytes m')
    (hpc : m'.pc = k + 1 + body.size) : Stands policy k (.loop body rest) m' := by
  refine h.of_steps hsteps h.code (.inr ?_)
  rw [hpc, Nat.add_right_comm]

/-! ## From evaluations to machines -/

theorem attains_of_eval (heval : Eval policy k b s e) (h : Stands policy k b m)
    (hstore : m.store out = s) : m.Attains out (k + b.size) e := by
  induction heval generalizing m out with
  | done => exact ⟨0, [], m, .refl m, h.entered, by rw [List.append_nil, hstore]⟩
  | @atom k a rest s s' e happly _ ih =>
      subst hstore
      rw [← h.pc_atom] at happly
      obtain ⟨bytes, m₁, hnext, hpc, hstore⟩ := next_of_apply_eq_ok h.instr_atom happly
      rw [Block.size_atom, Nat.add_comm rest.size, ← Nat.add_assoc]
      exact .after (.one hnext) (ih (h.rest_atom hnext hpc) hstore)
  | @skip k a rest s cause e hpolicy happly _ ih =>
      subst hstore
      rw [← h.pc_atom] at happly
      have hnext := next_of_permissive h.instr_atom (h.policy.trans hpolicy) happly
      rw [Block.size_atom, Nat.add_comm rest.size, ← Nat.add_assoc]
      exact .after_silent hnext (ih (h.rest_atom hnext rfl) (store_advance m out))
  | fault hpolicy happly =>
      subst hstore
      rw [← h.pc_atom] at happly
      have hnext := next_of_strict h.instr_atom (h.policy.trans hpolicy) happly
      exact ⟨0, [], m, .refl m, hnext, by rw [List.append_nil]⟩
  | @leave k body rest s e hcell _ ih =>
      subst hstore
      obtain ⟨m₁, hnext, hstore, hrest⟩ := h.leave hcell
      have hsize : k + (Block.loop body rest).size = k + body.size + 2 + rest.size := by
        rw [Block.size_loop]
        omega
      rw [hsize]
      exact .after_silent hnext (ih hrest hstore)
  | again hcell _ _ ihbody ihloop =>
      subst hstore
      obtain ⟨m₁, hnext, hstore, hbody⟩ := h.enter hcell
      obtain ⟨n, bytes, m₂, hsteps, hpc, hstore₂⟩ := ihbody hbody hstore
      have hloop := ihloop (h.again (.head hnext hsteps) hpc) hstore₂
      exact .after_silent hnext (.after hsteps hloop)
  | stuck hcell _ ihbody =>
      subst hstore
      obtain ⟨m₁, hnext, hstore, hbody⟩ := h.enter hcell
      obtain ⟨n, bytes, m₂, hsteps, hstuck, hstore₂⟩ := ihbody hbody hstore
      exact .after_silent hnext ⟨n, bytes, m₂, hsteps, hstuck, hstore₂⟩

/-! ## From machines to evaluations -/

theorem eval_of_atom (h : Stands policy k (.atom a rest) m) (out : List UInt8) :
    (∃ e, Eval policy k (.atom a rest) (m.store out) e) ∨
      ∃ bytes m', m.next = .step bytes m' ∧ Stands policy (k + 1) rest m' ∧
        ∀ e, Eval policy (k + 1) rest (m'.store (out ++ bytes)) e →
          Eval policy k (.atom a rest) (m.store out) e := by
  have hpc := h.pc_atom
  subst hpc
  cases happly : a.apply m.pc (m.store out) with
  | ok s =>
      obtain ⟨bytes, m₁, hnext, hpc, rfl⟩ := next_of_apply_eq_ok h.instr_atom happly
      exact .inr ⟨bytes, m₁, hnext, h.rest_atom hnext hpc, fun e he => .atom happly he⟩
  | error cause =>
      cases policy with
      | strict => exact .inl ⟨_, .fault rfl happly⟩
      | permissive =>
          have hnext := next_of_permissive h.instr_atom h.policy happly
          refine .inr ⟨[], m.advance, hnext, h.rest_atom hnext rfl, fun e he => ?_⟩
          rw [store_advance, List.append_nil] at he
          exact .skip rfl happly he

/-- A machine that comes to where it can complete no more has an evaluation of every block that it
stands at. -/
theorem exists_eval (h : Stands policy k b m) (hhalts : m.HaltsAfter n) (out : List UInt8) :
    ∃ e, Eval policy k b (m.store out) e := by
  induction n using Nat.strongRecOn generalizing k b m out with
  | ind n ih =>
      cases b with
      | done => exact ⟨_, .done⟩
      | atom a rest =>
          rcases h.eval_of_atom out with hfault | ⟨bytes, m₁, hnext, hrest, heval⟩
          · exact hfault
          · obtain ⟨i, rfl, hlater⟩ := hhalts.rest (.one hnext)
            obtain ⟨e, he⟩ := ih i (by omega) hrest hlater (out ++ bytes)
            exact ⟨e, heval e he⟩
      | loop body rest =>
          by_cases hcell : (m.store out).cell = 0
          · obtain ⟨m₁, hnext, hstore, hrest⟩ := h.leave hcell
            obtain ⟨i, rfl, hlater⟩ := hhalts.rest (.one hnext)
            obtain ⟨e, he⟩ := ih i (by omega) hrest hlater out
            rw [hstore] at he
            exact ⟨e, .leave hcell he⟩
          · obtain ⟨m₁, hnext, hstore, hbody⟩ := h.enter hcell
            obtain ⟨i, rfl, hlater⟩ := hhalts.rest (.one hnext)
            obtain ⟨e, he⟩ := ih i (by omega) hbody hlater out
            rw [hstore] at he
            cases e with
            | faulted cause s => exact ⟨_, .stuck hcell he⟩
            | ended s =>
                -- The evaluation of the body says where the machine is after one round.
                obtain ⟨j, bytes, m₂, hround, hpc, rfl⟩ := hbody.attains_of_eval he hstore
                obtain ⟨l, rfl, hlast⟩ := hlater.rest hround
                have hloop := h.again (.head hnext hround) hpc
                obtain ⟨e, he'⟩ := ih l (by omega) hloop hlast (out ++ bytes)
                exact ⟨e, .again hcell he he'⟩

end Stands

/-! ## Whole programs -/

namespace Ending

structure Final (e : Ending) (m : Machine) (out : List UInt8) : Prop where
  result : m.next.result? = some e.result
  store : m.store out = e.store

theorem Final.halted (h : e.Final m out) : m.Halted :=
  ⟨e.result, h.result⟩

theorem Final.unique {e' : Ending} (h : e.Final m out) (h' : e'.Final m out) : e = e' := by
  apply eq_of_result_of_store
  · exact Option.some.inj (h.result.symm.trans h'.result)
  · rw [← h.store, h'.store]

theorem Shown.final (h : e.Shown m.code.size m out) : e.Final m out := by
  cases e with
  | ended s =>
      obtain ⟨hpc, hstore⟩ := h
      have hnext := next_of_getElem?_eq_none (Array.getElem?_eq_none (Nat.le_of_eq hpc.symm))
      exact ⟨by rw [hnext]; rfl, hstore⟩
  | faulted cause s =>
      obtain ⟨hnext, hstore⟩ := h
      exact ⟨by rw [hnext]; rfl, hstore⟩

end Ending

namespace Stands

variable (h : Stands policy 0 b m) (hsize : b.size = m.code.size)

include h hsize

theorem exists_final_of_eval (heval : Eval policy 0 b (m.store []) e) :
    ∃ n bytes m', Steps n m bytes m' ∧ e.Final m' bytes := by
  obtain ⟨n, bytes, m', hsteps, hshown⟩ := h.attains_of_eval heval rfl
  rw [Nat.zero_add, hsize, ← hsteps.code_eq] at hshown
  exact ⟨n, bytes, m', hsteps, hshown.final⟩

theorem exists_final_iff_eval (e : Ending) :
    (∃ n bytes m', Steps n m bytes m' ∧ e.Final m' bytes) ↔ Eval policy 0 b (m.store []) e := by
  constructor
  · rintro ⟨n, bytes, m', hsteps, hfinal⟩
    obtain ⟨e', heval⟩ := h.exists_eval ⟨bytes, m', hsteps, hfinal.halted⟩ []
    obtain ⟨n', bytes', m'', hsteps', hfinal'⟩ := h.exists_final_of_eval hsize heval
    obtain ⟨rfl, rfl⟩ := hsteps.eq_of_halted hfinal.halted hsteps' hfinal'.halted
    rwa [hfinal.unique hfinal']
  · exact h.exists_final_of_eval hsize

theorem halts_iff_eval : (∃ n, m.HaltsAfter n) ↔ ∃ e, Eval policy 0 b (m.store []) e := by
  constructor
  · rintro ⟨n, hhalts⟩
    exact h.exists_eval hhalts []
  · rintro ⟨e, heval⟩
    obtain ⟨n, bytes, m', hsteps, hfinal⟩ := h.exists_final_of_eval hsize heval
    exact ⟨n, bytes, m', hsteps, hfinal.halted⟩

end Stands

namespace Machine

/-- A plain call without controls returns `result`, and what can be seen after it is `X`. -/
def Leaves {σ : Type} (m : Machine) (host : Host σ) (written : σ → List UInt8) (s : σ)
    (result : Except Failure Unit) (X : Store) : Prop :=
  ∃ m' s', m.Returns host .plain none s result m' s' ∧ written s' = written s ++ X.output ∧
    m'.store X.output = X

variable {σ : Type} {host : Host σ} {written : σ → List UInt8}

theorem leaves_iff (hhost : host.Accepting written) (s : σ) (e : Ending) :
    m.Leaves host written s e.result e.store ↔
      ∃ n bytes m', Steps n m bytes m' ∧ e.Final m' bytes := by
  constructor
  · rintro ⟨m', s', hreturns, hwritten, hstore⟩
    obtain ⟨n, hsteps, hresult⟩ := (returns_iff hhost).1 ⟨s', hreturns, hwritten⟩
    exact ⟨n, e.store.output, m', hsteps, hresult, hstore⟩
  · rintro ⟨n, bytes, m', hsteps, hresult, hstore⟩
    have hbytes : bytes = e.store.output := congrArg Store.output hstore
    subst hbytes
    obtain ⟨s', hreturns, hwritten⟩ := (returns_iff hhost).2 ⟨n, hsteps, hresult⟩
    exact ⟨m', s', hreturns, hwritten, hstore⟩

theorem exists_stands_of_load {source input : String} {config : MachineConfig}
    (hload : load source input config = .ok m) (feed : Feed) :
    ∃ tree : Block, tree.instrs = instrs source ∧
      Stands config.policy 0 tree { m with feed } ∧ tree.size = m.code.size ∧
      { m with feed }.store [] = .initial config.tapeSize feed.pending := by
  have hlinked := isLinked_of_load hload
  obtain ⟨hpos, code, hparse, rfl⟩ := load_eq_ok_iff.1 hload
  obtain ⟨tree, htree⟩ := Block.exists_of_balanced (Code.balanced_of_parse hparse) rfl
  refine ⟨tree, htree.trans (Code.toList_instrs_of_parse hparse), ⟨hlinked, rfl, ?_, ?_⟩, ?_, ?_⟩
  · rw [htree]
    exact .whole code
  · exact Block.entered_first 0 tree
  · rw [Block.size, htree, Array.length_toList, Code.size]
  · simp [store, Tape.blank, Store.initial]

/-- A source that parses is loaded on any tape, and a call on the loaded machine, into a sink that
takes everything, does what the big-step evaluation of the tree of the source says.  It returns
normally, or with a fault, exactly if the evaluation ends so, with the same tape, head, queue and
output; and it does not return exactly if there is no evaluation. -/
theorem run_implements_evaluation (hhost : host.Accepting written) {source : String} {code : Code}
    (hparse : Code.parse source = .ok code) {config : MachineConfig} (hsize : 0 < config.tapeSize)
    (input : String) (feed : Feed) (s : σ) :
    ∃ m tree, load source input config = .ok m ∧ m.code = code ∧ tree.instrs = instrs source ∧
      (∀ other : Block, other.instrs = instrs source → other = tree) ∧
      (∀ X : Store, { m with feed }.Leaves host written s (.ok ()) X ↔
        Eval config.policy 0 tree (.initial config.tapeSize feed.pending) (.ended X)) ∧
      (∀ (cause : Fault) (X : Store),
        { m with feed }.Leaves host written s (.error (.fault cause)) X ↔
          Eval config.policy 0 tree (.initial config.tapeSize feed.pending) (.faulted cause X)) ∧
      ((∀ fuel, ({ m with feed }.run host .plain none fuel s).outcome = none) ↔
        ¬∃ e, Eval config.policy 0 tree (.initial config.tapeSize feed.pending) e) := by
  have hload : load source input config = .ok _ := load_eq_ok_iff.2 ⟨hsize, code, hparse, rfl⟩
  obtain ⟨tree, htree, hat, hwhole, hstore⟩ := exists_stands_of_load hload feed
  have hleaves := fun e => (leaves_iff hhost s e).trans (hat.exists_final_iff_eval hwhole e)
  rw [hstore] at hleaves
  refine ⟨_, tree, hload, rfl, htree,
    fun other hother => Block.instrs_injective (hother.trans htree.symm),
    fun X => hleaves (.ended X), fun cause X => hleaves (.faulted cause X), ?_⟩
  rw [not_returns_iff hhost, hat.halts_iff_eval hwhole, hstore]

/-- Two rounds of a loop that counts down from the byte it is given. -/
theorem run_counts_down : ∃ m, load ",[.-]" "" { tapeSize := 1 } = .ok m ∧
    { m with feed := ⟨[2]⟩ }.Leaves (Sink.host {}) (fun s => s.taken.toList) {} (.ok ())
      { cells := [0], head := 0, input := [], output := [2, 1] } := by
  have hparse : Code.parse ",[.-]" =
      .ok ⟨#[.get, .opening, .put, .dec, .closing], #[0, 4, 2, 3, 1]⟩ := rfl
  have hsink : (Sink.host {}).Accepting fun s => s.taken.toList := Sink.accepting_host rfl rfl
  have hsize : 0 < ({ tapeSize := 1 } : MachineConfig).tapeSize := Nat.one_pos
  obtain ⟨m, tree, hload, _, _, hunique, hended, _, _⟩ :=
    run_implements_evaluation hsink hparse hsize "" ⟨[2]⟩ {}
  obtain rfl := hunique (.atom .get (.loop (.atom .put (.atom .dec .done)) .done)) rfl
  refine ⟨m, hload, (hended _).2 ?_⟩
  refine .atom rfl (.again (by decide) (.atom rfl (.atom rfl .done)) ?_)
  exact .again (by decide) (.atom rfl (.atom rfl .done)) (.leave rfl .done)

end Machine

end Brainfuck
