import RiscvRs.Lib.Trace
import RiscvRs.Run.Replay
import RiscvRs.Session.CallDepth
import RiscvRs.Session.Interface

/-! A listing against the run: the instructions that a session executes are those that it listed, as
long as nothing was written over them since. -/

namespace RiscvRs

open Effects Prog Bytes

section Instructions

/-- The low half of a word in memory is its first two bytes. -/
theorem setWidth_wordAt (m : Memory) (pc : U32) :
    ((m.wordAt pc).setWidth 16).toNat = (m.flat pc).toNat + 256 * (m.flat (pc + 1)).toNat := by
  have b0 := (m.flat pc).isLt
  have b1 := (m.flat (pc + 1)).isLt
  have b2 := (m.flat (pc + 1 + 1)).isLt
  have b3 := (m.flat (pc + 1 + 1 + 1)).isLt
  rw [Memory.wordAt, BitVec.toNat_setWidth, BitVec.toNat_ofNat]
  simp only [span, leNat]
  omega

/-- Two low bits tell a word from a half, and the first two bytes hold them. -/
theorem ofWindow_congr {window window' : U32} (low : window'.setWidth 16 = window.setWidth 16)
    (high : window &&& 0x3 = 0x3 → window' = window) :
    Fetched.ofWindow window' = Fetched.ofWindow window := by
  have bits : window' &&& 0x3 = window &&& 0x3 := by
    rw [← BitVec.toNat_inj, ← low_quadrant, ← low_quadrant, low]
  unfold Fetched.ofWindow
  rw [bits, low]
  split
  · next wide => rw [high wide]
  · rfl

/-- The instruction at an address depends on the bytes it is made of. -/
theorem instAt_congr {m m' : Memory} {pc : U32}
    (same : ∀ i < (m.instAt pc).width.bytes,
      m'.flat (pc + BitVec.ofNat 32 i) = m.flat (pc + BitVec.ofNat 32 i)) :
    m'.instAt pc = m.instAt pc := by
  have two : 2 ≤ (m.instAt pc).width.bytes := by
    cases m.instAt pc <;> simp [Fetched.width, Width.bytes]
  have first : m'.flat pc = m.flat pc := by simpa using same 0 (by omega)
  have second : m'.flat (pc + 1) = m.flat (pc + 1) := same 1 (by omega)
  refine ofWindow_congr ?_ fun wide => ?_
  · apply BitVec.eq_of_toNat_eq
    rw [setWidth_wordAt, setWidth_wordAt, first, second]
  · have four : (m.instAt pc).width.bytes = 4 := by
      rw [Memory.instAt, Fetched.ofWindow, if_pos wide]
      rfl
    have third : m'.flat (pc + 1 + 1) = m.flat (pc + 1 + 1) := by
      rw [BitVec.add_assoc]
      exact same 2 (by omega)
    have fourth : m'.flat (pc + 1 + 1 + 1) = m.flat (pc + 1 + 1 + 1) := by
      rw [BitVec.add_assoc, BitVec.add_assoc]
      exact same 3 (by omega)
    simp only [Memory.wordAt, span, first, second, third, fourth]

end Instructions

section Accounts

variable {env : Env} {m m' m'' : Memory}

/-- None of the visits writes to the instruction at `pc`. -/
def Memory.Untouched (env : Env) (m : Memory) (pc : U32) (visits : List Visit) : Prop :=
  ∀ visit ∈ visits, ∀ i < (m.instAt pc).width.bytes, ¬visit.Stores env (pc + BitVec.ofNat 32 i)

/-- What the visits, newest first, have to do with the memories before and after them: a byte that
changed is one that they may write, and what they execute stood there before them, unless they had
written over it. -/
structure Accounts (env : Env) (m : Memory) (visits : List Visit) (m' : Memory) : Prop where
  stored : ∀ x, m'.flat x ≠ m.flat x → ∃ visit ∈ visits, visit.Stores env x
  unwritten : ∀ later cpu inst completed earlier,
    visits = later ++ .executed cpu inst completed :: earlier →
    cpu.pc.toNat + 4 ≤ 0xFFFF0000 → m.Untouched env cpu.pc earlier → inst = m.instAt cpu.pc

theorem accounts_nil (env : Env) (same : m'.flat = m.flat) : Accounts env m [] m' where
  stored x changed := absurd (congrFun same x) changed
  unwritten later cpu inst completed earlier split := absurd split (by simp)

/-- An instruction that nothing was written to is still there. -/
theorem Accounts.instAt {visits : List Visit} (accounts : Accounts env m visits m') {pc : U32}
    (untouched : m.Untouched env pc visits) : m'.instAt pc = m.instAt pc := by
  refine instAt_congr fun i small => ?_
  by_contra changed
  obtain ⟨visit, member, stores⟩ := accounts.stored _ changed
  exact untouched visit member i small stores

theorem Accounts.trans {visits more : List Visit} (first : Accounts env m visits m')
    (second : Accounts env m' more m'') :
    Accounts env m (more ++ visits) m'' where
  stored x changed := by
    by_cases same : m'.flat x = m.flat x
    · rw [← same] at changed
      obtain ⟨visit, member, stores⟩ := second.stored x changed
      exact ⟨visit, List.mem_append_left _ member, stores⟩
    · obtain ⟨visit, member, stores⟩ := first.stored x same
      exact ⟨visit, List.mem_append_right _ member, stores⟩
  unwritten later cpu inst completed earlier split below untouched := by
    -- the instruction is one of the first visits, or one of the second with all of the first before it
    rcases List.append_eq_append_iff.mp split with ⟨late, -, split⟩ | ⟨tail, whole, split⟩
    · exact first.unwritten late cpu inst completed earlier split below untouched
    · cases tail with
      | nil => exact first.unwritten [] cpu inst completed earlier split.symm below untouched
      | cons visit rest =>
        obtain ⟨rfl, rfl⟩ := List.cons.inj split
        have still := first.instAt fun visit member => untouched visit
          (List.mem_append_right _ member)
        have quiet : m'.Untouched env cpu.pc rest := by
          intro visit member i small
          rw [still] at small
          exact untouched visit (List.mem_append_left _ member) i small
        exact (second.unwritten later cpu inst completed rest whole below quiet).trans still

/-- One instruction: what it changed it may write, and it was fetched from memory. -/
theorem accounts_executed {t u : Tracked} {inst : Fetched} {result : Except CpuError Unit}
    (run : (fetchExecute env t.cpu.pc).run t = .ok (inst, result) u) :
    Accounts env t.mem [.executed t.cpu inst result.isOk] u.mem where
  stored x changed := by
    obtain ⟨m, asked, attempted⟩ := fetchExecute_fetched run
    have fetched : m.bus.mem = t.mem := asked.2.1
    refine ⟨_, List.mem_cons_self, ?_⟩
    cases result with
    | ok =>
      rw [← fetched] at changed
      have stores := stores_of_execute (attempt_ok attempted) changed
      rw [asked.1] at stores
      exact ⟨rfl, stores⟩
    | error err => exact absurd (congrArg (Memory.flat · x) (asked_of_run run).2.1) changed
  unwritten later cpu inst' completed earlier split below _ := by
    cases later with
    | nil =>
      obtain ⟨same, rfl⟩ := List.cons.inj split
      obtain ⟨rfl, rfl, -⟩ := Visit.executed.inj same
      exact fetched_instAt below run
    | cons visit rest => exact absurd (congrArg List.length split) (by simp)

theorem accounts_poked {ε : Type} {bus bus' : Bus} {addr : U32} {val : U8}
    (run : (Memory.writeU8 addr val : Prog Bus ε Unit).run bus = .ok () bus') :
    Accounts env bus.mem [.poked addr] bus'.mem where
  stored x changed := by
    obtain ⟨last, ran, outside, -⟩ := flat_writeAt (ε := ε) bus .byte addr val
    obtain ⟨-, rfl⟩ := Outcome.ok.inj (ran.symm.trans run)
    refine ⟨_, List.mem_cons_self, ?_⟩
    by_contra apart
    refine changed (outside x (Nat.pos_of_ne_zero fun zero => apart ?_))
    exact sub_eq_zero.mp (BitVec.eq_of_toNat_eq zero)
  unwritten later cpu inst completed earlier split := by
    cases later with
    | nil => cases split
    | cons visit rest => exact absurd (congrArg List.length split) (by simp)

/-- A replay, event after event. -/
theorem replay_accounts (env : Env) (start : Tracked) (events : List GuestEvent) :
    Accounts env start.mem (replay env start events).1 (replay env start events).2.mem := by
  induction events with
  | nil => exact accounts_nil env rfl
  | cons event earlier ih =>
    rw [replay_cons]
    generalize replay env start earlier = done at ih ⊢
    cases event with
    | loaded => exact ih
    | interrupted irq pc next => exact ih
    | executed pc inst next completed =>
      rw [replayEvent]
      split
      · next run => exact ih.trans (accounts_executed run)
      · next run => exact ih.trans (accounts_executed run)
      · exact ih

end Accounts

section Commands

variable {env : Env} {s s' : Simulator}

/-- The instructions in the record, newest first. -/
def Tracked.executions (t : Tracked) : List (U32 × Fetched × Bool) :=
  t.history.filterMap GuestEvent.execution

/-- A step over first looks at the word at `pc`. -/
def Simulator.lookedAhead (env : Env) (s : Simulator) : Simulator :=
  match (onMemory (Memory.readU32 env.host s.tracked.cpu.pc)).run s with
  | .ok _ s' => s'
  | _ => s

/-- Where the instructions of a call begin. -/
def Command.start (env : Env) (s : Simulator) : Command → Tracked
  | debugStepOver _ _ => (s.lookedAhead env).tracked
  | _ => s.tracked

/-- The visits of a call that leads from `s` to `s'`, newest first: the byte that it writes, or its
instructions, as the record of them shows. -/
def Command.visits (env : Env) (s s' : Simulator) : Command → List Visit
  | writeMemoryByte addr _ => [.poked addr]
  | command => (replay env (command.start env s) (s.tracked.since s'.tracked)).1

def Command.Loads : Command → Prop
  | loadBinary _ _ _ | loadBinaryWithArgs _ _ _ => True
  | _ => False

theorem kept_following (start : Tracked) : KeptByDriver env (Following env start) where
  slice := runSlice_following
  halt following := by
    obtain ⟨events, leads⟩ := following
    exact ⟨events, leads.stopped⟩
  watch breakpoints following := by
    obtain ⟨events, leads⟩ := following
    exact ⟨events, leads.setting rfl⟩

theorem steady_step (start : Tracked) : Steady (keeping (Following env start)) (debugStep env) := by
  refine steady_bind (steady_onTracked stepInstruction_following) fun result =>
    steady_bind steady_simCpu fun cpu => ?_
  cases result <;> simp

theorem following_start (t : Tracked) : Following env t t := ⟨[], leadsTo_start env t⟩

/-- A step over, from where its look leaves it. -/
theorem debugStepOver_following {polls : Nat → Nat → Poll} {fuel : Nat} {snap : DebuggerSnapshot}
    (run : (debugStepOver env polls fuel).run s = .ok snap s') :
    Following env (s.lookedAhead env).tracked s'.tracked := by
  rw [debugStepOver, run_bind, run_simCpu, Outcome.andThen_ok] at run
  obtain ⟨inst, s₁, looked, rest⟩ := bind_ok.mp run
  have ahead : s.lookedAhead env = s₁ := by
    rw [Simulator.lookedAhead, looked]
  rw [ahead]
  refine Steady.ok (F := keeping (Following env s₁.tracked)) ?_ rest (following_start _)
  split
  · exact steady_bind (steady_arith env _ _ 0 0).1 fun next =>
      (kept_following _).runToTemporary polls fuel next
  · exact steady_step _

theorem lookedAhead_same (env : Env) (s : Simulator) :
    (s.lookedAhead env).tracked.history = s.tracked.history ∧
      (s.lookedAhead env).tracked.mem = s.tracked.mem := by
  obtain ⟨w, bus, read, mem, -⟩ := run_lookAt env s.tracked.cpu.pc s
  have ahead : s.lookedAhead env = s.withBus bus := by
    rw [Simulator.lookedAhead, read]
  rw [ahead]
  exact ⟨rfl, mem⟩

/-- What a listing shows, and leaves as it is. -/
theorem disassembleFrom_shows {symbols : Symbols} {startAddr len curr : U32} {fuel : Nat}
    {items : List DisassembledInst}
    (run : (disassembleFrom env symbols startAddr len fuel curr).run s = .ok items s') :
    s'.tracked.history = s.tracked.history ∧ s'.tracked.mem = s.tracked.mem ∧
      ∀ item ∈ items, ∃ w, item.Shows symbols s.tracked.mem w := by
  induction fuel generalizing s curr items with
  | zero => cases run
  | succ fuel ih =>
    by_cases inside : curr < saturatingAdd startAddr len
    · obtain ⟨w, bus, read, mem, bytes⟩ := run_lookAt env curr s
      rw [disassembleFrom_succ env symbols startAddr len fuel inside read] at run
      obtain ⟨rest, v, listed, done⟩ := Outcome.andThen_eq_ok.mp run
      obtain ⟨rfl, rfl⟩ := Outcome.ok.inj done
      obtain ⟨history, kept, shown⟩ := ih listed
      refine ⟨history, kept.trans mem,
        List.forall_mem_cons.mpr ⟨⟨w, rfl, bytes⟩, fun item member => ?_⟩⟩
      obtain ⟨w', shows⟩ := shown item member
      have same : (s.withBus bus).tracked.mem = s.tracked.mem := mem
      exact ⟨w', same ▸ shows⟩
    · rw [disassembleFrom, if_neg inside] at run
      obtain ⟨rfl, rfl⟩ := Outcome.ok.inj run
      exact ⟨rfl, rfl, fun _ member => (List.not_mem_nil member).elim⟩

theorem retraces_nil {t u : Tracked} (history : u.history = t.history) (mem : u.mem = t.mem) :
    Retraces env t [] u :=
  ⟨history, rfl, congrArg Memory.flat mem.symm⟩

/-- What a retraced record accounts for. -/
theorem Retraces.account {start t u : Tracked} {events : List GuestEvent}
    (retraces : Retraces env start events u)
    (history : start.history = t.history) (mem : start.mem = t.mem) :
    Accounts env t.mem (replay env start (t.since u)).1 u.mem ∧
      u.executions = (replay env start (t.since u)).1.filterMap Visit.execution ++
        t.executions := by
  have record : u.history = events ++ t.history := history ▸ retraces.record
  rw [since_append record]
  constructor
  · rw [← mem]
    exact (replay_accounts env start events).trans (accounts_nil env retraces.ram.symm)
  · rw [Tracked.executions, record, List.filterMap_append, retraces.listed]
    rfl

theorem answered_ok {α : Type} {x : Api α} {wrap : α → Answer} {answer : Answer}
    (answered : (do return wrap (← x) : Api Answer).run s = .ok answer s') :
    ∃ a, x.run s = .ok a s' ∧ answer = wrap a := by
  obtain ⟨a, s₁, inner, done⟩ := bind_ok.mp answered
  obtain ⟨rfl, rfl⟩ := Outcome.ok.inj done
  exact ⟨a, inner, rfl⟩

theorem retraces_setting {f : Cpu → Cpu} {a : Unit} (ran : (onCpu f).run s = .ok a s') :
    Retraces env s.tracked [] s'.tracked := by
  obtain ⟨-, rfl⟩ := Outcome.ok.inj ((run_onCpu f s).symm.trans ran)
  exact retraces_nil rfl rfl

/-- Every call but a load and a write by hand does what its record says. -/
theorem Command.retraces {command : Command} (unloaded : ¬command.Loads)
    (other : ∀ addr val, command ≠ .writeMemoryByte addr val) {answer : Answer}
    (answered : (command.answer env).run s = .ok answer s') :
    ∃ events, Retraces env (command.start env s) events s'.tracked := by
  have followed {start : Tracked} (following : Following env start s'.tracked) :
      ∃ events, Retraces env start events s'.tracked := by
    obtain ⟨events, leads⟩ := following
    exact ⟨events, leads.toRetraces⟩
  have driven {α : Type} {x : Api α} (steady : Steady (keeping (Following env s.tracked)) x) {a : α}
      (ran : x.run s = .ok a s') : ∃ events, Retraces env s.tracked events s'.tracked :=
    followed (steady.ok ran (following_start _))
  cases command with
  | loadBinary | loadBinaryWithArgs => exact absurd trivial unloaded
  | writeMemoryByte addr val => exact absurd rfl (other addr val)
  | setHasCustomSyscalls | setDebugMode | addBreakpoint | removeBreakpoint | clearBreakpoints =>
    obtain ⟨a, ran, -⟩ := answered_ok answered
    exact ⟨[], retraces_setting ran⟩
  | writeRegister regIdx val =>
    obtain ⟨a, ran, -⟩ := answered_ok answered
    unfold RiscvRs.writeRegister at ran
    split at ran
    · exact ⟨[], retraces_setting ran⟩
    · obtain ⟨-, rfl⟩ := Outcome.ok.inj ran
      exact ⟨[], retraces_nil rfl rfl⟩
  | hasCustomSyscalls | getSnapshotJs | getSymbolAt =>
    obtain ⟨a, ran, -⟩ := answered_ok answered
    obtain ⟨-, rfl⟩ := Outcome.ok.inj ran
    exact ⟨[], retraces_nil rfl rfl⟩
  | readMemoryRange addr len =>
    obtain ⟨a, ran, -⟩ := answered_ok answered
    obtain ⟨bus, read, rfl⟩ := onMemory_ok ran
    exact ⟨[], retraces_nil rfl ((steady_readEach env.host asks_queryFrame addr _).ok read).1⟩
  | disassembleRange fuel startAddr len =>
    obtain ⟨a, ran, -⟩ := answered_ok answered
    obtain ⟨history, mem, -⟩ := disassembleFrom_shows ran
    exact ⟨[], retraces_nil history mem⟩
  | runSlice poll budget =>
    obtain ⟨a, ran, -⟩ := answered_ok answered
    exact driven (steady_onTracked runSlice_following) ran
  | runFull polls fuel =>
    obtain ⟨a, ran, -⟩ := answered_ok answered
    exact driven (steady_onTracked (kept_following _).run) ran
  | debugStep =>
    obtain ⟨a, ran, -⟩ := answered_ok answered
    exact driven (steady_step _) ran
  | debugStepOver polls fuel =>
    obtain ⟨a, ran, -⟩ := answered_ok answered
    exact followed (debugStepOver_following ran)
  | debugStepOut polls fuel =>
    obtain ⟨a, ran, -⟩ := answered_ok answered
    exact driven (steady_bind steady_simCpu fun cpu =>
      (kept_following _).runToTemporary polls fuel _) ran
  | runUntilBreakpoint polls fuel =>
    obtain ⟨a, ran, -⟩ := answered_ok answered
    exact driven ((kept_following _).runUntilBreakpoint polls fuel 0) ran

/-- What a call leaves in memory and in the record is the work of its visits. -/
theorem Command.account {command : Command} (unloaded : ¬command.Loads) {answer : Answer}
    (answered : (command.answer env).run s = .ok answer s') :
    Accounts env s.tracked.mem (command.visits env s s') s'.tracked.mem ∧
      s'.tracked.executions = (command.visits env s s').filterMap Visit.execution ++
        s.tracked.executions := by
  by_cases poke : ∃ addr val, command = .writeMemoryByte addr val
  · obtain ⟨addr, val, rfl⟩ := poke
    obtain ⟨a, ran, -⟩ := answered_ok answered
    obtain ⟨bus, written, rfl⟩ := onMemory_ok ran
    exact ⟨accounts_poked written, rfl⟩
  have other (addr : U32) (val : U8) (same : command = .writeMemoryByte addr val) : False :=
    poke ⟨addr, val, same⟩
  obtain ⟨events, retraces⟩ := command.retraces unloaded other answered
  have visits : command.visits env s s' =
    (replay env (command.start env s) (s.tracked.since s'.tracked)).1 := by
    cases command with
    | writeMemoryByte addr val => exact (other addr val rfl).elim
    | _ => rfl
  have start : (command.start env s).history = s.tracked.history ∧
    (command.start env s).mem = s.tracked.mem := by
    cases command with
    | debugStepOver => exact lookedAhead_same env s
    | _ => exact ⟨rfl, rfl⟩
  rw [visits]
  exact retraces.account start.1 start.2

end Commands

section Sessions

/-- A call with its answer and its visits. -/
structure Exchange where
  command : Command
  answer : Answer
  visits : List Visit

/-- Made at `s`, the call comes to its answer and its visits. -/
structure Exchange.Performed (env : Env) (s : Simulator) (exchange : Exchange)
    (s' : Simulator) : Prop where
  answered : (exchange.command.answer env).run s = .ok exchange.answer s'
  visited : exchange.visits = exchange.command.visits env s s'

/-- The visits of all calls, newest first. -/
def visitsOf (calls : List (Simulator × Exchange)) : List Visit :=
  calls.flatMap fun move => move.2.visits

variable {env : Env} {s s' : Simulator} {calls : List (Simulator × Exchange)}

theorem session_account (session : Trace (Exchange.Performed env) s calls s')
    (unloaded : ∀ move ∈ calls, ¬move.2.command.Loads) :
    Accounts env s.tracked.mem (visitsOf calls) s'.tracked.mem ∧
      s'.tracked.executions = (visitsOf calls).filterMap Visit.execution ++
        s.tracked.executions := by
  induction session with
  | start => exact ⟨accounts_nil env rfl, rfl⟩
  | @step moves u v exchange before last ih =>
    obtain ⟨here, unloaded⟩ := List.forall_mem_cons.mp unloaded
    obtain ⟨accounts, recorded⟩ := ih unloaded
    obtain ⟨more, added⟩ := exchange.command.account here last.answered
    rw [← last.visited] at more added
    refine ⟨accounts.trans more, ?_⟩
    rw [added, recorded, ← List.append_assoc, ← List.filterMap_append]
    rfl

/-- Since a listing, what runs is what it shows: an instruction to which nothing was written between
the listing and its execution is the one that stood there, and every line of the listing for its
address shows it. -/
def RunsAsListed (env : Env) (sim : Simulator) (items : List DisassembledInst)
    (visits : List Visit) : Prop :=
  ∀ later cpu inst completed earlier, visits = later ++ .executed cpu inst completed :: earlier →
    cpu.pc.toNat + 4 ≤ 0xFFFF0000 → sim.tracked.mem.Untouched env cpu.pc earlier →
    inst = sim.tracked.mem.instAt cpu.pc ∧
      ∀ item ∈ items, item.address = cpu.pc →
        ∃ w, item = decodeInstructionWithSymbols cpu.pc w (some sim.symbolNames) ∧
          inst = .ofWindow w

/-- What a session does to memory is what its instructions and its writes by hand may do, and what
it executes is what it listed. For every sequence of calls without a load: the instructions in the
record are those of the visits, in order; RAM differs only where a visit may write; and from any
listing on, without a load since, each instruction runs as it was listed, unless a visit since the
listing may have written to it. -/
theorem listing_is_what_runs (env : Env) (s s' : Simulator) (calls : List (Simulator × Exchange))
    (session : Trace (Exchange.Performed env) s calls s') :
    ((∀ move ∈ calls, ¬move.2.command.Loads) →
      s'.tracked.executions = (visitsOf calls).filterMap Visit.execution ++ s.tracked.executions ∧
        ∀ x, s'.tracked.mem.flat x ≠ s.tracked.mem.flat x → ∃ visit ∈ visitsOf calls,
          visit.Stores env x) ∧
      ∀ later sim listing earlier fuel startAddr len items,
        calls = later ++ (sim, listing) :: earlier →
        listing.command = .disassembleRange fuel startAddr len → listing.answer = .listing items →
        (∀ move ∈ later, ¬move.2.command.Loads) → RunsAsListed env sim items (visitsOf later) := by
  constructor
  · intro unloaded
    obtain ⟨accounts, recorded⟩ := session_account session unloaded
    exact ⟨recorded, accounts.stored⟩
  · rintro later sim ⟨command, answer, visits⟩ earlier fuel startAddr len items rfl rfl rfl unloaded
    obtain ⟨t, -, performed, rest⟩ := session.cut
    obtain ⟨listed, ran, same⟩ := answered_ok performed.answered
    obtain rfl := Answer.listing.inj same
    obtain ⟨-, mem, shown⟩ := disassembleFrom_shows ran
    obtain ⟨accounts, -⟩ := session_account rest unloaded
    rw [mem] at accounts
    intro late cpu inst completed before split below untouched
    have stood := accounts.unwritten late cpu inst completed before split below untouched
    refine ⟨stood, fun item member here => ?_⟩
    obtain ⟨w, shows⟩ := shown item member
    have line := shows.line
    have bytes := shows.bytes
    rw [here] at line bytes
    refine ⟨w, line, ?_⟩
    rw [stood, bytes below]
    rfl

theorem performed_of (env : Env) (s : Simulator) (command : Command) {answer : Answer}
    {s' : Simulator}
    (answered : (command.answer env).run s = .ok answer s') :
    Exchange.Performed env s ⟨command, answer, command.visits env s s'⟩ s' :=
  ⟨answered, rfl⟩

/-- `C.NOP`. -/
def Simulator.idling : Simulator := { Simulator.new with tracked := .program [0x01, 0x00] }

/-- It is listed, and stepped after a byte was written elsewhere. -/
theorem listing_is_what_runs_nop : ∃ listing poked stepped s' item cpu,
    Trace (Exchange.Performed default) .idling [stepped, poked, (.idling, listing)] s' ∧
      listing.answer = .listing [item] ∧
      visitsOf [stepped, poked] = [.executed cpu (.half 1) true, .poked 0x100] ∧
      ∃ w, item = decodeInstructionWithSymbols cpu.pc w (some Simulator.idling.symbolNames) ∧
        Fetched.half 1 = .ofWindow w := by
  have session := ((Trace.single (performed_of default .idling (.disassembleRange 2 0 2) rfl)).step
    (performed_of default _ (.writeMemoryByte 0x100 7) rfl)).step
      (performed_of default _ .debugStep rfl)
  obtain ⟨listing, poked, stepped, s', item, cpu, session, commands, answer, visits, pc, address⟩ :
      ∃ listing poked stepped s' item cpu,
        Trace (Exchange.Performed default) .idling [stepped, poked, (.idling, listing)] s' ∧
          [stepped.2.command, poked.2.command, listing.command] =
            [.debugStep, .writeMemoryByte 0x100 7, .disassembleRange 2 0 2] ∧
          listing.answer = .listing [item] ∧
            visitsOf [stepped, poked] = [.executed cpu (.half 1) true, .poked 0x100] ∧
          cpu.pc = 0 ∧ item.address = 0 :=
    ⟨_, _, _, _, _, _, session, rfl, rfl, rfl, rfl, rfl⟩
  obtain ⟨stepping, poking, listed⟩ : stepped.2.command = .debugStep ∧
    poked.2.command = .writeMemoryByte 0x100 7 ∧
      listing.command = .disassembleRange 2 0 2 := by simpa using commands
  have unloaded : ∀ move ∈ [stepped, poked], ¬move.2.command.Loads := by
    simp [stepping, poking, Command.Loads]
  have apart : Simulator.idling.tracked.mem.Untouched default cpu.pc [.poked 0x100] := by
    intro visit member i small
    obtain rfl := List.mem_singleton.mp member
    rw [pc] at small ⊢
    have two : i < 2 := small
    change (0 : U32) + BitVec.ofNat 32 i ≠ 0x100
    interval_cases i <;> decide
  have shown := ((listing_is_what_runs default _ _ _ session).2 [stepped, poked] .idling listing []
    2 0 2 _ rfl listed
    answer unloaded [] cpu _ true [.poked 0x100] visits (by rw [pc]; decide) apart).2 item
      (List.mem_singleton_self item)
    (address.trans pc.symm)
  exact ⟨listing, poked, stepped, s', item, cpu, session, answer, visits, shown⟩

end Sessions

end RiscvRs
