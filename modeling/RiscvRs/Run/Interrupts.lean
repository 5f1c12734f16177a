import RiscvRs.Run.Moves
import RiscvRs.Run.Breakpoints

/-! Interrupt entry and `MRET`: what they save and restore, and what holds of
control and of the control registers along every run. -/

namespace RiscvRs

open Effects Prog

section Entry

variable (cpu : Cpu) (irq : U32)

theorem mepc_handleInterrupt : (cpu.handleInterrupt irq).csrs.get mepc = cpu.pc := by
  dsimp only [Cpu.handleInterrupt]
  rw [CsrFile.get_set_of_ne _ (by decide), CsrFile.get_set_of_ne _ (by decide), CsrFile.get_set]

theorem mcause_handleInterrupt :
    (cpu.handleInterrupt irq).csrs.get mcause = 0x80000000 ||| irq := by
  dsimp only [Cpu.handleInterrupt]
  rw [CsrFile.get_set_of_ne _ (by decide), CsrFile.get_set]

/-- The enable bit moves to its saved place. -/
theorem mstatus_handleInterrupt (enabled : cpu.csrs.get mstatus &&& mstatusMie ≠ 0) :
    (cpu.handleInterrupt irq).csrs.get mstatus =
      cpu.csrs.get mstatus &&& ~~~(mstatusMie ||| mstatusMpie) ||| mstatusMpie := by
  dsimp only [Cpu.handleInterrupt]
  rw [CsrFile.get_set, CsrFile.get_set_of_ne _ (by decide), CsrFile.get_set_of_ne _ (by decide),
    if_pos enabled]

/-- The entry writes three control registers. -/
theorem get_handleInterrupt {num : U16} (epc : CsrFile.slot num ≠ CsrFile.slot mepc)
    (cause : CsrFile.slot num ≠ CsrFile.slot mcause)
    (status : CsrFile.slot num ≠ CsrFile.slot mstatus) :
    (cpu.handleInterrupt irq).csrs.get num = cpu.csrs.get num := by
  dsimp only [Cpu.handleInterrupt]
  rw [CsrFile.get_set_of_ne _ status, CsrFile.get_set_of_ne _ cause, CsrFile.get_set_of_ne _ epc]

/-- The vector, unless none is installed. -/
theorem pc_handleInterrupt :
    (cpu.handleInterrupt irq).pc =
      if cpu.csrs.get mtvec ≠ 0 then cpu.csrs.get mtvec else cpu.pc := by
  have kept : (cpu.handleInterrupt irq).csrs.get mtvec = cpu.csrs.get mtvec := by
    apply get_handleInterrupt <;> decide
  rw [← kept]
  rfl

end Entry

section Return

theorem or_and_self_right {w : Nat} (a b : BitVec w) : (a ||| b) &&& b = b := by
  ext i inside
  simp only [BitVec.getElem_and, BitVec.getElem_or]
  cases b[i] <;> simp

/-- `MRET` turns the enable bit on when its saved copy is set. -/
theorem mstatus_mret {cpu : Cpu} (saved : cpu.csrs.get mstatus &&& mstatusMpie ≠ 0) :
    cpu.mret.csrs.get mstatus = cpu.csrs.get mstatus &&& ~~~mstatusMie ||| mstatusMpie |||
      mstatusMie := by
  dsimp only [Cpu.mret]
  rw [CsrFile.get_set, if_pos saved]

/-- `MRET` undid the entry: control is back where it was interrupted, interrupts
are on again, and nothing else of the control registers changed. -/
structure Resumed (interrupted before after : Cpu) : Prop where
  pc : after.pc = interrupted.pc
  mie : after.csrs.get mstatus &&& mstatusMie ≠ 0
  mpie : after.csrs.get mstatus &&& mstatusMpie ≠ 0
  status : after.csrs.get mstatus &&& ~~~(mstatusMie ||| mstatusMpie) =
    before.csrs.get mstatus &&& ~~~(mstatusMie ||| mstatusMpie)
  csrs : ∀ num, CsrFile.slot num ≠ CsrFile.slot mstatus → after.csrs.get num = before.csrs.get num

/-- The word `MRET` executes in one way. -/
theorem execute_mret (env : Env) (m : Machine) :
    (executeInst32 env 0x30200073).run m =
      .ok () ⟨{ m.cpu.mret with
        pc := if m.cpu.csrs.get mepc ≠ 0 then m.cpu.csrs.get mepc else m.cpu.pc + 4 }, m.bus⟩ :=
  rfl

/-- Interrupt entry and `MRET` are inverse, with or without a trap vector, except
that a saved address of zero is taken for an unset one: the interrupted instruction
resumes unless it stood at address zero and the return was not the last word of
the address space. -/
theorem mret_resumes_iff (env : Env) (s : Cpu) (irq : U32)
    (enabled : s.csrs.get mstatus &&& mstatusMie ≠ 0)
    (m : Machine)
    (epc : m.cpu.csrs.get mepc = (s.handleInterrupt irq).csrs.get mepc)
    (status : m.cpu.csrs.get mstatus = (s.handleInterrupt irq).csrs.get mstatus) :
    ∃ m', (executeInst32 env 0x30200073).run m = .ok () m' ∧
      (Resumed s m.cpu m'.cpu ↔ s.pc ≠ 0 ∨ m.cpu.pc + 4 = 0) := by
  refine ⟨_, execute_mret env m, ?_⟩
  rw [mepc_handleInterrupt] at epc
  rw [mstatus_handleInterrupt s irq enabled] at status
  have saved : m.cpu.csrs.get mstatus &&& mstatusMpie ≠ 0 := by
    rw [status, or_and_self_right]
    decide
  constructor
  · intro resumed
    have pc := resumed.pc
    by_contra failed
    push Not at failed
    obtain ⟨zero, elsewhere⟩ := failed
    rw [epc, zero] at pc
    exact elsewhere pc
  · intro condition
    have returned := mstatus_mret saved
    constructor
    · change (if m.cpu.csrs.get mepc ≠ 0 then m.cpu.csrs.get mepc else m.cpu.pc + 4) = s.pc
      rw [epc]
      split
      · rfl
      · next zero =>
        have zero : s.pc = 0 := not_not.mp zero
        rw [zero]
        exact condition.resolve_left (not_not.mpr zero)
    · change m.cpu.mret.csrs.get mstatus &&& mstatusMie ≠ 0
      rw [returned, or_and_self_right]
      decide
    · change m.cpu.mret.csrs.get mstatus &&& mstatusMpie ≠ 0
      rw [returned, BitVec.or_assoc, BitVec.or_comm mstatusMpie, ← BitVec.or_assoc,
        or_and_self_right]
      decide
    · change m.cpu.mret.csrs.get mstatus &&& _ = _
      rw [returned]
      ext i inside
      simp only [BitVec.getElem_and, BitVec.getElem_or, BitVec.getElem_not]
      cases (m.cpu.csrs.get mstatus)[i] <;> cases mstatusMie[i] <;> cases mstatusMpie[i] <;> rfl
    · intro num other
      exact CsrFile.get_set_of_ne _ other _

/-- A processor that runs at `pc` with interrupts on and a handler at `0x100`. -/
def Cpu.interruptible (pc : U32) : Cpu :=
  { Cpu.new with pc := pc, csrs := (CsrFile.new.set mstatus mstatusMie).set mtvec 0x100 }

theorem mret_resumes_iff_at_four :
    ∃ m', (executeInst32 default 0x30200073).run
      { Machine.new with cpu := (Cpu.interruptible 4).handleInterrupt 7 } =
      .ok () m' ∧ m'.cpu.pc = 4 := by
  obtain ⟨m', run, resumes⟩ := mret_resumes_iff default (Cpu.interruptible 4) 7 (by decide)
    { Machine.new with cpu := (Cpu.interruptible 4).handleInterrupt 7 } rfl rfl
  exact ⟨m', run, (resumes.mpr (.inl (by decide))).pc⟩

/-- A guest interrupted at its first instruction goes on behind the `MRET`. -/
theorem mret_loses_address_zero :
    ∃ (s : Cpu) (irq : U32) (m m' : Machine), s.csrs.get mstatus &&& mstatusMie ≠ 0 ∧
      s.csrs.get mtvec ≠ 0 ∧
      m.cpu.csrs.get mepc = (s.handleInterrupt irq).csrs.get mepc ∧
      m.cpu.csrs.get mstatus = (s.handleInterrupt irq).csrs.get mstatus ∧
      (executeInst32 default 0x30200073).run m = .ok () m' ∧ s.pc = 0 ∧ m'.cpu.pc = 0x104 ∧
      ¬Resumed s m.cpu m'.cpu := by
  refine ⟨Cpu.interruptible 0, 7,
    { Machine.new with cpu := (Cpu.interruptible 0).handleInterrupt 7 }, _,
    by decide, by decide, rfl, rfl, execute_mret _ _, rfl, by decide, ?_⟩
  intro resumed
  have pc := resumed.pc
  revert pc
  decide

end Return

section Handlers

variable {env : Env}

/-- What a move does to control. -/
inductive Steered (s t : Cpu) : Turn → Prop where
  | exec {inst : Fetched} (control : Control s t inst) : Steered s t (.exec inst)
  | irq {irq : U32} (enabled : s.interruptsEnabled = true) (taken : t = s.handleInterrupt irq) :
    Steered s t (.irq irq)
  | trap {inst : Fetched} (csrs : t.csrs = s.csrs) (pc : t.pc = s.pc) : Steered s t (.trap inst)
  | report (csrs : t.csrs = s.csrs) (pc : t.pc = s.pc) : Steered s t .report

theorem Move.steered {s t : Tracked} {turn : Turn} (move : Move env s turn t) :
    Steered s.cpu t.cpu turn ∧ t.cpu.fcsr = s.cpu.fcsr := by
  cases move with
  | exec live inst m run =>
    obtain ⟨control, fcsr⟩ := control_of_fetchExecute run
    refine ⟨.exec ?_, fcsr⟩
    cases control with
    | mret returns csrs pc => exact .mret returns csrs pc
    | named num other named csrs pc => exact .named num other named csrs pc
    | plain other unnamed csrs aligned => exact .plain other unnamed csrs aligned
  | trap live inst err m messages counted run =>
    have same : m.cpu = s.cpu := (asked_of_run run).1
    have csrs : m.cpu.csrs = s.cpu.csrs := congrArg Cpu.csrs same
    have pc : m.cpu.pc = s.cpu.pc := congrArg Cpu.pc same
    have fcsr : m.cpu.fcsr = s.cpu.fcsr := congrArg Cpu.fcsr same
    exact ⟨.trap csrs pc, fcsr⟩
  | irq live enabled irq => exact ⟨.irq enabled rfl, rfl⟩
  | report pending => exact ⟨.report rfl rfl, rfl⟩

/-- The guest turns interrupts on again, or may do so. -/
def Turn.unmasks : Turn → Bool
  | exec inst => inst.isMret || inst.csrNamed? == some mstatus
  | _ => false

/-- The guest executes a CSR instruction that names `num`. -/
def Turn.names (num : U16) : Turn → Bool
  | exec inst => inst.csrNamed? == some num
  | _ => false

/-- Inside a handler a control register stays until the guest names it. -/
theorem Steered.get_eq {s t : Cpu} {turn : Turn} {num : U16} (small : num.toNat < 4096)
    (steered : Steered s t turn)
    (masked : s.interruptsEnabled = false) (handling : turn.unmasks = false)
    (unnamed : turn.names num = false) :
    t.csrs.get num = s.csrs.get num := by
  cases steered with
  | exec control =>
    simp only [Turn.unmasks, Bool.or_eq_false_iff] at handling
    cases control with
    | mret returns csrs pc =>
      rw [returns] at handling
      exact absurd handling.1 (by decide)
    | named other otherInst named csrs pc =>
      have apart : CsrFile.slot num ≠ CsrFile.slot other := by
        intro same
        have equal := CsrFile.slot_inj small (Fetched.csrNamed?_lt named) same
        simp [Turn.names, named, equal] at unnamed
      rw [csrs, CsrFile.get_set_of_ne _ apart]
    | plain otherInst unnamed csrs aligned => rw [csrs]
  | irq enabled taken =>
    rw [masked] at enabled
    cases enabled
  | trap csrs pc => rw [csrs]
  | report csrs pc => rw [csrs]

theorem Steered.masked {s t : Cpu} {turn : Turn} (steered : Steered s t turn)
    (masked : s.interruptsEnabled = false) (handling : turn.unmasks = false) :
    t.interruptsEnabled = false := by
  have unnamed : turn.names mstatus = false := by
    cases turn with
    | exec inst => exact (Bool.or_eq_false_iff.mp handling).2
    | _ => rfl
  rw [Cpu.interruptsEnabled, steered.get_eq (by decide) masked handling unnamed]
  exact masked

/-- After an interrupt, while the guest does not unmask: interrupts stay off. -/
theorem Moves.masked_since {start last s : Tracked} {late early : List (Tracked × Turn)} {irq : U32}
    (run : Moves env start (late ++ (s, .irq irq) :: early) last)
    (handling : ∀ move ∈ late, move.2.unmasks = false) : last.cpu.interruptsEnabled = false := by
  refine run.since (G := fun _ turn => turn.unmasks = false)
    (P := fun t => t.cpu.interruptsEnabled = false) ?_ ?_ handling
  · intro s turn t move good masked
    exact move.steered.1.masked masked good
  · intro t move
    cases move
    exact interruptsEnabled_handleInterrupt _ _

/-- After an interrupt, while the guest neither unmasks nor names `num`: what the
entry left in that register is there. -/
theorem Moves.get_since {start last s : Tracked} {late early : List (Tracked × Turn)}
    {irq : U32} {num : U16}
    (small : num.toNat < 4096) (run : Moves env start (late ++ (s, .irq irq) :: early) last)
    (handling : ∀ move ∈ late, move.2.unmasks = false)
    (unnamed : ∀ move ∈ late, move.2.names num = false) :
    last.cpu.csrs.get num = (s.cpu.handleInterrupt irq).csrs.get num := by
  have kept := run.since (G := fun _ turn => turn.unmasks = false ∧ turn.names num = false)
    (P := fun t => t.cpu.interruptsEnabled = false ∧
      t.cpu.csrs.get num = (s.cpu.handleInterrupt irq).csrs.get num) ?_ ?_ ?_
  · exact kept.2
  · rintro s turn t move ⟨handling, unnamed⟩ ⟨masked, value⟩
    refine ⟨move.steered.1.masked masked handling, ?_⟩
    rw [move.steered.1.get_eq small masked handling unnamed, value]
  · intro t move
    cases move
    exact ⟨interruptsEnabled_handleInterrupt _ _, rfl⟩
  · intro move member
    exact ⟨handling move member, unnamed move member⟩

/-- No interrupt is delivered inside a handler. Every sequence of calls is a run;
along a run, between two interrupts the guest returned from its handler or named
`mstatus`, and until it does, `mepc` and `mcause` hold what the entry saved unless
the guest names them. -/
theorem no_interrupt_inside_handler (env : Env) (start last : Tracked) :
    (∀ calls, (driveAll env calls).run start = .ok () last → ∃ moves, Moves env start moves last) ∧
    (∀ moves, Moves env start moves last →
      (∀ late mid early s₁ irq₁ s₂ irq₂,
        moves = late ++ (s₂, .irq irq₂) :: (mid ++ (s₁, .irq irq₁) :: early) →
        ∃ move ∈ mid, move.2.unmasks = true) ∧
      (∀ mid early s irq, moves = mid ++ (s, .irq irq) :: early →
        (∀ move ∈ mid, move.2.unmasks = false) →
        ((∀ move ∈ mid, move.2.names mepc = false) → last.cpu.csrs.get mepc = s.cpu.pc) ∧
        ((∀ move ∈ mid, move.2.names mcause = false) →
          last.cpu.csrs.get mcause = 0x80000000 ||| irq))) := by
  refine ⟨fun calls run => driveAll_moves run, ?_⟩
  intro moves run
  constructor
  · rintro late mid early s₁ irq₁ s₂ irq₂ rfl
    obtain ⟨t, upTo, second, -⟩ := run.cut
    by_contra quiet
    push Not at quiet
    have masked := Moves.masked_since upTo fun move member => by simpa using quiet move member
    cases second with
    | irq live enabled =>
      rw [masked] at enabled
      cases enabled
  · rintro mid early s irq rfl handling
    constructor
    · intro unnamed
      rw [Moves.get_since (by decide) run handling unnamed, mepc_handleInterrupt]
    · intro unnamed
      rw [Moves.get_since (by decide) run handling unnamed, mcause_handleInterrupt]

/-- A machine about to run at `pc` with interrupts on. -/
def Tracked.interruptible (pc : U32) : Tracked where
  machine := { Machine.new with cpu := Cpu.interruptible pc }
  history := []

/-- The same with a handler in memory: `C.NOP` and `MRET`. -/
def Tracked.handled : Tracked :=
  let t := Tracked.interruptible 4
  let nop := (t.mem.store 0x100 0x01).store 0x101 0x00
  let mem := (((nop.store 0x102 0x73).store 0x103 0x00).store 0x104 0x20).store 0x105 0x30
  { t with machine := { t.machine with bus := { t.machine.bus with mem := mem } } }

/-- Two interrupts, with the handler of the first between them. -/
theorem no_interrupt_inside_handler_twice : ∃ entered inside resumed last,
    Moves default .handled [(resumed, .irq 9), (inside, .exec (.word 0x30200073)),
      (entered, .exec (.half 1)),
        (.handled, .irq 7)] last ∧
      (∃ move ∈ [(inside, Turn.exec (.word 0x30200073)), (entered, .exec (.half 1))],
        move.2.unmasks = true) ∧
      inside.cpu.csrs.get mepc = 4 ∧ inside.cpu.csrs.get mcause = 0x80000007 := by
  obtain ⟨entered, inside, resumed, last, handler, rest⟩ : ∃ entered inside resumed last,
      Moves default .handled [(entered, .exec (.half 1)), (.handled, .irq 7)] inside ∧
        Moves default inside [(resumed, .irq 9), (inside, .exec (.word 0x30200073))] last :=
    ⟨_, _, _, _, .step (.single (.irq _ rfl (by decide) 7)) (.exec _ rfl (.half 1) _ rfl),
      .step (.single (.exec _ rfl (.word 0x30200073) _ rfl)) (.irq _ rfl (by decide) 9)⟩
  have run := handler.trans rest
  have between := ((no_interrupt_inside_handler default .handled last).2 _ run).1 []
    [(inside, .exec (.word 0x30200073)), (entered, .exec (.half 1))] [] .handled 7 resumed 9 rfl
  have saved := ((no_interrupt_inside_handler default .handled inside).2 _ handler).2
    [(entered, .exec (.half 1))] [] .handled 7 rfl (List.forall_mem_singleton.mpr rfl)
  exact ⟨entered, inside, resumed, last, run, between, saved.1 (List.forall_mem_singleton.mpr rfl),
    saved.2 (List.forall_mem_singleton.mpr rfl)⟩

end Handlers

section Alignment

variable {env : Env}

/-- The control registers a move sends `pc` to are even. -/
def Turn.Aligns (cpu : Cpu) : Turn → Prop
  | exec inst => inst.isMret = true → Aligned (cpu.csrs.get mepc)
  | irq _ => Aligned (cpu.csrs.get mtvec)
  | _ => True

/-- An even `pc` stays even exactly under that condition: jumps and branches clear
the low bit, `MRET` and the interrupt entry do not. -/
theorem Steered.aligned_iff {s t : Cpu} {turn : Turn} (steered : Steered s t turn)
    (here : Aligned s.pc) :
    Aligned t.pc ↔ turn.Aligns s := by
  cases steered with
  | @exec inst control =>
    cases control with
    | mret returns csrs pc =>
      simp only [Turn.Aligns, returns, true_implies]
      rw [pc]
      split
      · rfl
      · next zero =>
        rw [not_not.mp zero]
        exact iff_of_true (here.add rfl) rfl
    | named num other named csrs pc =>
      rw [pc]
      exact iff_of_true (here.add rfl) (by simp [Turn.Aligns, other])
    | plain other unnamed csrs aligned =>
      exact iff_of_true (aligned here) (by simp [Turn.Aligns, other])
  | irq enabled taken =>
    rw [taken, pc_handleInterrupt]
    split
    · rfl
    · next zero =>
      simp only [Turn.Aligns]
      rw [not_not.mp zero]
      exact iff_of_true here rfl
  | trap csrs pc =>
    rw [pc]
    exact iff_of_true here trivial
  | report csrs pc =>
    rw [pc]
    exact iff_of_true here trivial

/-- `pc` stays even along a run from an even entry point exactly as long as the
guest returns to even addresses and has an even vector when interrupted. -/
theorem pc_aligned_iff (env : Env) (start last : Tracked) (entry : Aligned start.cpu.pc) :
    (∀ calls, (driveAll env calls).run start = .ok () last → ∃ moves, Moves env start moves last) ∧
    (∀ moves, Moves env start moves last →
      ((Aligned last.cpu.pc ∧ ∀ move ∈ moves, Aligned move.1.cpu.pc) ↔
        ∀ move ∈ moves, move.2.Aligns move.1.cpu)) := by
  refine ⟨fun calls run => driveAll_moves run, ?_⟩
  intro moves run
  refine run.holds_iff (P := fun t => Aligned t.cpu.pc)
    (G := fun t turn => turn.Aligns t.cpu) ?_ entry
  intro s turn t move here
  exact move.steered.1.aligned_iff here

/-- An interrupt with an even vector. -/
theorem pc_aligned_iff_once : Aligned ((Tracked.interruptible 4).interrupted 7).cpu.pc := by
  have run : Moves default (.interruptible 4) [(.interruptible 4, .irq 7)]
      ((Tracked.interruptible 4).interrupted 7) := .single (.irq _ rfl (by decide) 7)
  have vector : Turn.Aligns (Tracked.interruptible 4).cpu (.irq 7) := by
    change Aligned _
    decide
  have even := ((pc_aligned_iff default (.interruptible 4) _ (by decide)).2 _ run).mpr
  exact (even (by simpa using vector)).1

/-- `csrrwi x0, mepc, 5` and `mret` take a fresh machine to an odd address. -/
theorem pc_misaligned_after_mret :
    ∃ (bytes : List U8) (calls : List Drive) (last : Tracked), Aligned
      (Tracked.program bytes).cpu.pc ∧
      (driveAll default calls).run (.program bytes) = .ok () last ∧ last.cpu.pc = 5 ∧
        ¬Aligned last.cpu.pc :=
  ⟨[0x73, 0xD0, 0x12, 0x34, 0x73, 0x00, 0x20, 0x30], [.step, .step], _, rfl, rfl, rfl, by decide⟩

end Alignment

end RiscvRs
