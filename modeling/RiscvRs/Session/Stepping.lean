import RiscvRs.Machine.Fields
import RiscvRs.Exec.Atomics
import RiscvRs.Run.Accounting
import RiscvRs.Run.Fetch
import RiscvRs.Run.Interrupts
import RiscvRs.Session.Halting
import RiscvRs.Session.Settings

/-! Stepping over an instruction: what the classifier of calls takes for a call, and when
a step over is a plain step. -/

namespace RiscvRs

open Effects Prog Bytes

namespace Fetched

/-- How the executor reads four bytes: by the two lowest bits. -/
def ofWindow (window : U32) : Fetched :=
  if window &&& 0x3 = 0x3 then .word window else .half (window.setWidth 16)

/-- Quadrant 2, `funct3` 4 and bit 12: `C.EBREAK`, `C.JALR` and `C.ADD`. -/
def inJalrGroup (inst : U16) : Prop :=
  (DecodedInst16.decode inst).op = 2 ∧ (DecodedInst16.decode inst).funct3 = 4 ∧
    shiftThenMask inst 12 1 = 1

instance (inst : U16) : Decidable (inJalrGroup inst) := inferInstanceAs (Decidable (_ ∧ _ ∧ _))

/-- The register in which a jump leaves its return address. -/
def link? : Fetched → Option (Fin 32)
  | word inst =>
    let decoded := DecodedInst32.decode inst
    if decoded.opcode = Opcode.jal.bits ∨
      decoded.opcode = Opcode.jalr.bits then some decoded.rd else none
  | half inst =>
    let decoded := DecodedInst16.decode inst
    if decoded.op = 1 ∧ decoded.funct3 = 1 then some 1
    else if inJalrGroup inst ∧ regField16 inst 7 ≠ 0 ∧ regField16 inst 2 = 0 then some 1
    else none

/-- A call that links through `ra` or `t0`. -/
def LinkingCall (inst : Fetched) : Prop := inst.link? = some 1 ∨ inst.link? = some 5

/-- What the classifier takes for `C.JALR` and is not: `C.ADD` and `C.EBREAK`. -/
def Mistaken : Fetched → Prop
  | word _ => False
  | half inst => inJalrGroup inst ∧ (regField16 inst 7 = 0 ∨ regField16 inst 2 ≠ 0)

/-- `C.EBREAK`. -/
def isEbreak16 : Fetched → Prop
  | word _ => False
  | half inst => inJalrGroup inst ∧ regField16 inst 7 = 0 ∧ regField16 inst 2 = 0

end Fetched

section Classifier

/-- A field of the low half is the same field of the word. -/
theorem low_field (window mask : U32) (mask' : U16) (lo k : Nat) (inside : lo + k ≤ 16)
    (ones : mask.toNat = 2 ^ k - 1) (ones' : mask'.toNat = 2 ^ k - 1) :
    (shiftThenMask (window.setWidth 16) lo mask').toNat = (shiftThenMask window lo mask).toNat := by
  rw [toNat_shiftThenMask _ _ lo k ones, toNat_shiftThenMask _ _ lo k ones', BitVec.toNat_setWidth,
    Isa.low_bits _ inside]

theorem low_quadrant (window : U32) :
    (window.setWidth 16 &&& (0x3 : U16)).toNat = (window &&& 0x3).toNat := by
  have field := low_field window 0x3 0x3 0 2 (by decide) rfl rfl
  rwa [shiftThenMask, shiftThenMask, BitVec.ushiftRight_zero, BitVec.ushiftRight_zero] at field

/-- The fields the classifier takes from the word are those the executor takes from the half. -/
theorem window_fields (window : U32) :
    (DecodedInst16.decode (window.setWidth 16)).op.toNat = (window &&& 0x3).toNat ∧
      (DecodedInst16.decode (window.setWidth 16)).funct3.toNat =
        (shiftThenMask window 13 0x7).toNat ∧
      (shiftThenMask (window.setWidth 16) 12 (1 : U16)).toNat =
        (shiftThenMask window 12 1).toNat := by
  have group := low_field window 0x7 0x7 13 3 (by decide) rfl rfl
  refine ⟨?_, ?_, low_field window 1 1 12 1 (by decide) rfl rfl⟩
  · change ((window.setWidth 16 &&& (0x3 : U16)).setWidth 8).toNat = _
    have small : (window &&& 0x3).toNat < 2 ^ 8 := (mask_lt window 0x3).trans_lt (by decide)
    rw [BitVec.toNat_setWidth, low_quadrant, Nat.mod_eq_of_lt small]
  · change ((shiftThenMask (window.setWidth 16) 13 (0x7 : U16)).setWidth 8).toNat = _
    have small : (shiftThenMask window 13 0x7).toNat < 2 ^ 8 :=
      (mask_lt (window >>> 13) 0x7).trans_lt (by decide)
    rw [BitVec.toNat_setWidth, group, Nat.mod_eq_of_lt small]

theorem isCallInstruction_iff (window : U32) :
    isCallInstruction window = true ↔
      (Fetched.ofWindow window).LinkingCall ∨ (Fetched.ofWindow window).Mistaken := by
  unfold isCallInstruction Fetched.ofWindow
  by_cases wide : window &&& 0x3 = 0x3
  · rw [if_neg (not_not.mpr wide), if_pos wide]
    simp only [Fetched.LinkingCall, Fetched.Mistaken, Fetched.link?, or_false]
    split
    · simp
    · simp
  · rw [if_pos wide, if_neg wide]
    obtain ⟨op, funct3, bit12⟩ := window_fields window
    have quadrant (q : U32) (r : U8) (same : q.toNat = r.toNat) :
        window &&& 0x3 = q ↔ (DecodedInst16.decode (window.setWidth 16)).op = r := by
      rw [← BitVec.toNat_inj, ← BitVec.toNat_inj, op, same]
    have group (q : U32) (r : U8) (same : q.toNat = r.toNat) :
        shiftThenMask window 13 0x7 = q ↔
          (DecodedInst16.decode (window.setWidth 16)).funct3 = r := by
      rw [← BitVec.toNat_inj, ← BitVec.toNat_inj, funct3, same]
    have bit : shiftThenMask window 12 1 = 1 ↔
      shiftThenMask (window.setWidth 16) 12 1 = (1 : U16) := by
      rw [← BitVec.toNat_inj, ← BitVec.toNat_inj, bit12]
      rfl
    have jal : (window &&& 0x3 = 0x1 ∧ shiftThenMask window 13 0x7 = 0x1) ↔
        (DecodedInst16.decode (window.setWidth 16)).op = 1 ∧
          (DecodedInst16.decode (window.setWidth 16)).funct3 = 1 := by
      rw [quadrant 1 1 rfl, group 1 1 rfl]
    have jalr : (window &&& 0x3 = 0x2 ∧ shiftThenMask window 13 0x7 = 0x4 ∧
      shiftThenMask window 12 1 = 1) ↔
        Fetched.inJalrGroup (window.setWidth 16) := by
      rw [quadrant 2 2 rfl, group 4 4 rfl, bit]
      rfl
    simp only [jal, jalr, Fetched.LinkingCall, Fetched.Mistaken, Fetched.link?]
    split
    · simp
    · by_cases linked : regField16 (window.setWidth 16) 7 ≠ 0 ∧
        regField16 (window.setWidth 16) 2 = 0
      · simp [linked]
      · have other : regField16 (window.setWidth 16) 7 = 0 ∨
          regField16 (window.setWidth 16) 2 ≠ 0 :=
          or_iff_not_imp_left.mpr fun some bare => linked ⟨some, bare⟩
        simp [linked, other]

end Classifier

section Fetching

variable {env : Env}

/-- The instruction in memory at `pc`. -/
def Memory.instAt (m : Memory) (pc : U32) : Fetched := .ofWindow (m.wordAt pc)

/-- The first two of four bytes. -/
theorem readU16_wordAt {ε : Type} (host : Host) (bus : Bus) {pc : U32}
    (below : pc.toNat + 2 ≤ 0xFFFF0000) :
    (Memory.readU16 host pc : Prog Bus ε _).run bus =
      .ok ((bus.mem.wordAt pc).setWidth 16) bus := by
  obtain ⟨val, read, value⟩ := readAt_below (ε := ε) host bus .half below
  have same : (val : U16) = (bus.mem.wordAt pc).setWidth 16 := by
    apply BitVec.eq_of_toNat_eq
    change val.toNat = _ % 2 ^ 16
    have b0 := (bus.mem.flat pc).isLt
    have b1 := (bus.mem.flat (pc + 1)).isLt
    have b2 := (bus.mem.flat (pc + 1 + 1)).isLt
    have b3 := (bus.mem.flat (pc + 1 + 1 + 1)).isLt
    rw [value, Memory.wordAt, BitVec.toNat_ofNat]
    simp only [Width.bytes, span, leNat]
    omega
  rw [← same]
  exact read

/-- A halfword is fetched by its own two bytes. -/
theorem fetch_narrow (host : Host) (bus : Bus) {pc : U32} (below : pc.toNat + 2 ≤ 0xFFFF0000)
    (narrow : bus.mem.wordAt pc &&& 0x3 ≠ 0x3) :
    (fetch host pc).run bus = .ok (.half ((bus.mem.wordAt pc).setWidth 16)) bus := by
  have low : (bus.mem.wordAt pc).setWidth 16 &&& (0x3 : U16) ≠ 0x3 := by
    intro wide
    have same := low_quadrant (bus.mem.wordAt pc)
    rw [wide] at same
    exact narrow (BitVec.eq_of_toNat_eq same.symm)
  rw [fetch_eq_plainFetch, plainFetch, run_bind, readU16_wordAt host bus below,
    Outcome.andThen_ok, if_pos low]
  rfl

theorem fetch_instAt (host : Host) (bus : Bus) {pc : U32} (below : pc.toNat + 4 ≤ 0xFFFF0000) :
    (fetch host pc).run bus = .ok (bus.mem.instAt pc) bus := by
  rw [Memory.instAt, Fetched.ofWindow]
  by_cases wide : bus.mem.wordAt pc &&& 0x3 = 0x3
  · have low : (bus.mem.wordAt pc).setWidth 16 &&& (0x3 : U16) = 0x3 := by
      rw [← BitVec.toNat_inj, low_quadrant, wide]
      rfl
    rw [fetch_eq_plainFetch, plainFetch, run_bind, readU16_wordAt host bus (by omega),
      Outcome.andThen_ok,
      if_neg (not_not.mpr low), if_pos wide, run_bind, readU32_below host bus below]
    rfl
  · rw [if_neg wide]
    exact fetch_narrow host bus (by omega) wide

/-- A fetch that leaves the devices alone, and the execution after it. -/
theorem fetchExecute_of_fetch {t : Tracked} {inst : Fetched}
    (fetched : (fetch env.host t.cpu.pc).run t.machine.bus = .ok inst t.machine.bus) :
    (fetchExecute env t.cpu.pc).run t =
      ((attempt (inst.execute env) : Prog Machine Empty _).run t.machine).reshape
        (fun result m => .ok (inst, result) { t with machine := m }) (fun e _ => e.elim) := by
  rw [fetchExecute_eq, run_bind, run_onMachine, run_onBus fetched]
  simp only [Outcome.reshape_ok, Outcome.andThen_ok, run_bind, run_onMachine]
  change (Outcome.reshape ((attempt (inst.execute env) : Prog Machine Empty _).run t.machine) _
    _).andThen _ = _
  cases (attempt (inst.execute env) : Prog Machine Empty _).run t.machine with
  | ok result m => rfl
  | err e m => exact e.elim
  | panic => rfl
  | exhausted => rfl

/-- `C.EBREAK` stops the machine. -/
theorem execute_ebreak16 (env : Env) {inst : Fetched} (ebreak : inst.isEbreak16) (m : Machine) :
    (inst.execute env).run m =
      .ok () { m with cpu := { m.cpu with isHalted := true, pc := m.cpu.pc + 2 } } := by
  cases inst with
  | word inst => exact ebreak.elim
  | half inst =>
    obtain ⟨⟨op, funct3, bit12⟩, rd, rs2⟩ := ebreak
    rw [Fetched.execute_run, Fetched.op, op, funct3]
    change (((jumpGroupOp inst m.cpu (m.cpu.pc + 2)).exec env).run m).andThen _ = _
    simp only [jumpGroupOp, bit12, rd, rs2]
    rfl

/-- The operation of `C.ADD`. -/
theorem jumpGroupOp_add {inst : U16} {cpu : Cpu} (bit12 : shiftThenMask inst 12 1 = 1)
    (source : regField16 inst 2 ≠ 0)
    (next : U32) :
    jumpGroupOp inst cpu next = if regField16 inst 7 ≠ 0 then
      .write (regField16 inst 7)
        (cpu.readReg (regField16 inst 7) + cpu.readReg (regField16 inst 2)) next
    else .goto next := by
  unfold jumpGroupOp
  dsimp only
  rw [bit12, if_neg (fun both => source both.2), if_neg (fun both => absurd both.1 (by decide)),
    if_neg (fun both => source both.2), if_neg source]

/-- `C.ADD` completes on a live machine and leaves it live. -/
theorem execute_add16 (env : Env) {inst : Fetched} (mistaken : inst.Mistaken)
    (other : ¬inst.isEbreak16) (m : Machine) :
    ∃ m', (inst.execute env).run m = .ok () m' ∧ m'.cpu.isHalted = m.cpu.isHalted := by
  cases inst with
  | word inst => exact mistaken.elim
  | half inst =>
    obtain ⟨⟨op, funct3, bit12⟩, fields⟩ := mistaken
    rw [Fetched.execute_run, Fetched.op, op, funct3]
    change ∃ m', (((jumpGroupOp inst m.cpu (m.cpu.pc + 2)).exec env).run m).andThen _ = _ ∧ _
    have source : regField16 inst 2 ≠ 0 := by
      intro zero
      rcases fields with rd | rs2
      · exact other ⟨⟨op, funct3, bit12⟩, rd, zero⟩
      · exact rs2 zero
    rw [jumpGroupOp_add bit12 source]
    split
    · next rd =>
      refine ⟨_, rfl, ?_⟩
      change (m.cpu.writeReg _ _).isHalted = _
      rw [Cpu.writeReg, if_pos rd]
    · exact ⟨_, rfl, rfl⟩

/-- An operation that stops the machine writes no control register. -/
theorem Op.csrs_of_halt {op : Op} {m m' : Machine} {next : U32} (live : m.cpu.isHalted = false)
    (run : (op.exec env).run m = .ok next m') (halted : m'.cpu.isHalted = true) :
    op.csrs m.cpu = m.cpu.csrs := by
  cases op with
  | mret target =>
    obtain ⟨-, rfl⟩ := Outcome.ok.inj run
    exact absurd (halted.symm.trans live) (by decide)
  | csr num newVal rd oldVal target =>
    obtain ⟨-, rfl⟩ := Outcome.ok.inj run
    have stays : (({ m.cpu with csrs := m.cpu.csrs.set num newVal } : Cpu).writeReg rd
      oldVal).isHalted = false := by
      rw [Cpu.writeReg]
      split <;> exact live
    exact absurd (halted.symm.trans stays) (by decide)
  | _ => rfl

theorem csrs_of_halting {t : Tracked} {inst : Fetched} {m : Machine} (live : t.cpu.isHalted = false)
    (run : (fetchExecute env t.cpu.pc).run t = .ok (inst, .ok ()) { t with machine := m })
    (halted : m.cpu.isHalted = true) : m.cpu.csrs = t.cpu.csrs := by
  obtain ⟨m₁, asked, attempted⟩ := fetchExecute_fetched run
  have executed := attempt_ok attempted
  rw [Fetched.execute_run] at executed
  obtain ⟨next, m₂, op, rest⟩ := Outcome.andThen_eq_ok.mp executed
  obtain ⟨-, rfl⟩ := Outcome.ok.inj rest
  have same : m₁.cpu = t.cpu := asked.1
  have kept := Op.csrs_of_halt (m := m₁) (by rw [same]; exact live) op halted
  rw [same] at kept
  exact (same ▸ (Op.control_of_exec env op).1).trans kept

end Fetching

section Interrupted

variable {env : Env} {watch : Bool}

/-- The first round of a slice polls before it looks at anything else. -/
theorem runSlice_polled {poll : Nat → Poll} {budget : U32} {out : SliceOutcome} {t t' : Tracked}
    (live : t.cpu.isHalted = false) (positive : 0 < budget.toNat)
    (run : (runSlice env poll budget).run t = .ok out t') :
    ∃ c, SlicePath env t.cpu.watches ⟨t.entry.skip, t.entry.state.polled (poll 0)⟩ out.steps c ∧
      SliceStop env t.cpu.watches c out.status t' := by
  rw [runSlice_run] at run
  obtain ⟨⟨status, executed⟩, u, loop, rest⟩ := Outcome.andThen_eq_ok.mp run
  obtain ⟨rfl, rfl⟩ := Outcome.ok.inj rest
  have alive : t.entry.state.cpu.isHalted = false := live
  rw [sliceLoop_round _ _ _ alive positive] at loop
  obtain ⟨⟨done, skip, stopped⟩, v, chunk, rest⟩ := Outcome.andThen_eq_ok.mp loop
  obtain ⟨n, c, path, count, bound, ⟨rfl, -, rfl⟩ | ⟨status', rfl, notRunning, stop, early⟩⟩ :=
    chunkLoop_path chunk
  · obtain ⟨k, c', path', total, -, stop, -⟩ :=
      sliceLoop_hostPath (fun _ => Set.mem_univ _) (by omega) rest
    have steps : executed = n + k := by omega
    rw [steps]
    exact ⟨c', path.trans path'.slicePath, stop⟩
  · obtain ⟨result, rfl⟩ := Outcome.ok.inj rest
    obtain ⟨rfl, rfl⟩ := Prod.mk.inj result
    have steps : 0 + done = n := by omega
    rw [steps]
    exact ⟨c, path, stop⟩

/-- A path of one instruction that stops the machine is that instruction, where the control
registers do not show an interrupt before it. -/
theorem SlicePath.only {start c : Cursor} (path : SlicePath env watch start 1 c)
    (live : start.state.cpu.isHalted = false) (halted : c.state.cpu.isHalted = true)
    (csrs : c.state.cpu.csrs = start.state.cpu.csrs) : ExecStep env watch start c := by
  cases path with
  | exec before step =>
    rcases before.still live with rfl | ⟨-, -, masked, enabled⟩
    · exact step
    · cases step with
      | mk alive clear inst m run =>
        have kept : m.cpu.csrs = _ := csrs_of_halting alive run halted
        have same := kept.symm.trans csrs
        rw [Cpu.interruptsEnabled, same] at masked
        rw [Cpu.interruptsEnabled, masked] at enabled
        cases enabled
  | irq before step =>
    cases step with
    | mk alive enabled irq =>
      have still : (Cpu.handleInterrupt _ irq).isHalted = true := halted
      exact absurd (still.symm.trans alive) (by decide)

theorem SliceStop.csrs {c : Cursor} {status : SliceStatus} {t : Tracked}
    (stop : SliceStop env watch c status t) :
    t.cpu.csrs = c.state.cpu.csrs :=
  stop.keeps Cpu.csrs (fun _ _ => rfl) (fun _ => rfl)

/-- Nothing unmasks an interrupt but an instruction that goes on. -/
theorem SlicePath.masked {start c : Cursor} {n : Nat} (path : SlicePath env watch start n c)
    (live : start.state.cpu.isHalted = false) (masked : start.state.cpu.interruptsEnabled = false)
    (few : n = 0 ∨ n = 1 ∧ c.state.cpu.isHalted = true) :
    c.state.cpu.interruptsEnabled = false := by
  cases path with
  | start => exact masked
  | @exec k b _ before step =>
    have first : k = 0 := by omega
    subst first
    have halted : c.state.cpu.isHalted = true := by
      rcases few with none | ⟨-, halted⟩
      · omega
      · exact halted
    rcases before.still live with rfl | ⟨-, -, -, enabled⟩
    · cases step with
      | mk alive clear inst m run =>
        have csrs := csrs_of_halting alive run halted
        change Cpu.interruptsEnabled m.cpu.countStep = false
        rw [Cpu.interruptsEnabled] at masked ⊢
        change (m.cpu.csrs.get mstatus &&& mstatusMie != 0) = false
        rw [csrs]
        exact masked
    · rw [masked] at enabled
      cases enabled
  | irq before step =>
    cases step with
    | mk alive enabled irq => exact interruptsEnabled_handleInterrupt _ irq

end Interrupted

section Quiet

variable {env : Env} {poll : Nat → Poll} {budget : U32} {t : Tracked}

/-- A slice whose first poll delivers nothing, up to the end of its first chunk. -/
theorem runSlice_quiet (live : t.cpu.isHalted = false) (positive : 0 < budget.toNat)
    (quiet : (poll 0).delivers t.cpu = false) :
    (runSlice env poll budget).run t =
      (((chunkLoop env t.cpu.watches (min (poll 0).interval budget.toNat) t.entry.skip 0).run
        t.entry.state).andThen
        fun result u => match result.2.2 with
          | some status => .ok (status, 0 + result.1) u
          | none =>
            (sliceLoop env poll t.cpu.watches budget.toNat budget.toNat 1 result.2.1
              (0 + result.1)).run u).andThen
        fun result u => .ok ⟨result.1, result.2, u.cpu.pc, u.cpu.exitCode⟩ u := by
  have alive : t.entry.state.cpu.isHalted = false := live
  have still : t.entry.state.polled (poll 0) = t.entry.state := if_neg (Bool.not_eq_true _ ▸ quiet)
  rw [runSlice_run, sliceLoop_round _ _ _ alive positive, still]
  rfl

/-- The first chunk has room for an instruction. -/
theorem chunk_pos (answer : Poll) (positive : 0 < budget.toNat) :
    ∃ k, min answer.interval budget.toNat = k + 1 := by
  have progress := answer.interval_pos
  exact ⟨min answer.interval budget.toNat - 1, by omega⟩

/-- A slice that starts at an unreported breakpoint reports it. -/
theorem runSlice_hit (live : t.cpu.isHalted = false) (positive : 0 < budget.toNat)
    (quiet : (poll 0).delivers t.cpu = false) (hit : t.cpu.StepHit) :
    (runSlice env poll budget).run t = .ok ⟨.breakpoint, 0, t.cpu.pc, t.cpu.exitCode⟩
      (t.withCpu { t.cpu with resumePastBreakpoint := some t.cpu.pc }) := by
  obtain ⟨k, size⟩ := chunk_pos (poll 0) positive
  have alive : ¬t.entry.state.cpu.isHalted = true := by
    change ¬t.cpu.isHalted = true
    simp [live]
  rw [runSlice_quiet live positive quiet, size, chunkLoop_succ, if_neg alive,
    if_pos ((hit_entry_iff t).mpr hit)]
  rfl

/-- A slice whose first instruction stops the machine. -/
theorem runSlice_stopped {inst : Fetched} {m : Machine} (live : t.cpu.isHalted = false)
    (positive : 0 < budget.toNat)
    (quiet : (poll 0).delivers t.cpu = false) (clear : ¬t.cpu.StepHit)
    (run : (fetchExecute env t.cpu.pc).run t.entry.state = .ok (inst, .ok ())
      { t.entry.state with machine := m })
    (halted : m.cpu.isHalted = true) :
    (runSlice env poll budget).run t =
      .ok ⟨.halted, 1, m.cpu.pc, m.cpu.exitCode⟩ (t.entry.state.completed inst m) := by
  obtain ⟨k, size⟩ := chunk_pos (poll 0) positive
  have alive : ¬t.entry.state.cpu.isHalted = true := by
    change ¬t.cpu.isHalted = true
    simp [live]
  have passed : ¬Cursor.Hit t.cpu.watches ⟨t.entry.skip, t.entry.state⟩ :=
    mt (hit_entry_iff t).mp clear
  have after : (t.entry.state.completed inst m).cpu.isHalted = true := halted
  have fetched : (fetchExecute env t.entry.state.cpu.pc).run t.entry.state =
      .ok (inst, .ok ()) { t.entry.state with machine := m } := run
  rw [runSlice_quiet live positive quiet, size, chunkLoop_succ, if_neg alive, if_neg passed,
    fetched, Outcome.andThen_ok]
  -- The machine has stopped; whether the chunk or the slice sees it first depends on the interval.
  cases k with
  | zero =>
    obtain ⟨fuel, more⟩ : ∃ fuel, budget.toNat = fuel + 1 := ⟨budget.toNat - 1, by omega⟩
    change (((sliceLoop env poll t.cpu.watches budget.toNat budget.toNat 1 _ 1).run
      (t.entry.state.completed inst m)).andThen _) = _
    nth_rewrite 2 [more]
    rw [sliceLoop_halted _ _ _ after]
    rfl
  | succ k =>
    change ((Outcome.andThen
      ((chunkLoop env t.cpu.watches (k + 1) _ 1).run (t.entry.state.completed inst m)) _).andThen
      _) = _
    rw [chunkLoop_succ, if_pos after]
    rfl

end Quiet

section Commands

variable {env : Env} {polls : Nat → Nat → Poll} {fuel : Nat} {s s' : Simulator}
  {snap : DebuggerSnapshot}

/-- The simulator with one more breakpoint. -/
def Simulator.watching (s : Simulator) (addr : U32) : Simulator :=
  { s with
    tracked := s.tracked.withCpu
      { s.tracked.cpu with breakpoints := insert addr s.tracked.cpu.breakpoints } }

/-- The simulator with the breakpoints it had before a command. -/
def Simulator.restoring (s : Simulator) (breakpoints : Finset U32) : Simulator :=
  { s with tracked := s.tracked.withCpu { s.tracked.cpu with breakpoints := breakpoints } }

/-- A run to a temporary breakpoint, without its layers. -/
theorem runToTemporary_run (s : Simulator) (addr : U32) :
    (runToTemporary env polls fuel addr).run s =
      ((runUntilBreakpoint env polls fuel 0).run (s.watching addr)).andThen fun snap s' =>
        .ok snap (s'.restoring s.tracked.cpu.breakpoints) := by
  rw [runToTemporary, run_bind, run_simCpu, Outcome.andThen_ok, run_bind, run_onCpu,
    Outcome.andThen_ok, run_bind]
  cases run : (runUntilBreakpoint env polls fuel 0).run (s.watching addr) with
  | ok snap s' =>
    have during : s'.tracked.cpu.breakpoints = insert addr s.tracked.cpu.breakpoints :=
      congrArg HostSettings.breakpoints (runUntilBreakpoint_hostSettings run)
    change (Outcome.andThen ((runUntilBreakpoint env polls fuel 0).run (s.watching addr)) _) = _
    rw [run, Outcome.andThen_ok, Outcome.andThen_ok]
    by_cases had : addr ∈ s.tracked.cpu.breakpoints
    · rw [if_neg (by simpa using had)]
      have same : s'.restoring s.tracked.cpu.breakpoints = s' := by
        rw [Finset.insert_eq_of_mem had] at during
        rw [Simulator.restoring, ← during]
        rfl
      rw [same]
      rfl
    · rw [if_pos (by simpa using had), run_bind, run_onCpu, Outcome.andThen_ok, run_pure, during,
        Finset.erase_insert had]
      rfl
  | err e s' => exact e.elim
  | panic =>
    change (Outcome.andThen ((runUntilBreakpoint env polls fuel 0).run (s.watching addr)) _) = _
    rw [run]
    rfl
  | exhausted =>
    change (Outcome.andThen ((runUntilBreakpoint env polls fuel 0).run (s.watching addr)) _) = _
    rw [run]
    rfl

/-- The address after the instruction at `pc`. -/
def Simulator.nextPc (s : Simulator) : U32 :=
  s.tracked.cpu.pc + if s.tracked.mem.wordAt s.tracked.cpu.pc &&& 0x3 = 0x3 then 4 else 2

/-- The same simulator after the host was asked more. -/
def Simulator.asked (s : Simulator) (io : List IoEvent) : Simulator :=
  s.withBus (s.tracked.machine.bus.withIo io)

/-- What a read of four bytes at `pc` gives, and what the host has been asked after it. -/
def Simulator.Looks (env : Env) (s : Simulator) (window : U32) (io : List IoEvent) : Prop :=
  (Memory.readU32 env.host s.tracked.cpu.pc : Prog Bus Empty U32).run s.tracked.machine.bus =
    .ok window (s.tracked.machine.bus.withIo io)

theorem Simulator.looks (env : Env) (s : Simulator) : ∃ window io, s.Looks env window io := by
  obtain ⟨window, events, read, -⟩ :=
    readAt_events (ε := Empty) env.host s.tracked.machine.bus .word s.tracked.cpu.pc
  exact ⟨window, _, read⟩

/-- The length of the instruction whose first bytes these are. -/
def windowLength (window : U32) : U32 := if window &&& 0x3 = 0x3 then 4 else 2

/-- The address after the instruction does not fit, in a build that checks. -/
def Simulator.Wraps (env : Env) (s : Simulator) (window : U32) : Prop :=
  env.build.overflowChecks = true ∧ 2 ^ 32 ≤ s.tracked.cpu.pc.toNat + (windowLength window).toNat

instance (env : Env) (s : Simulator) (window : U32) : Decidable (s.Wraps env window) :=
  inferInstanceAs (Decidable (_ ∧ _))

theorem after_ne (pc window : U32) : pc + windowLength window ≠ pc := by
  unfold windowLength
  split
  · bv_omega
  · bv_omega

theorem nextPc_ne (s : Simulator) : s.nextPc ≠ s.tracked.cpu.pc := after_ne _ _

/-- A step over, by what its look at `pc` gives. -/
theorem debugStepOver_looked {window : U32} {io : List IoEvent} (look : s.Looks env window io) :
    (debugStepOver env polls fuel).run s =
      if isCallInstruction window = true then
        if s.Wraps env window then .panic
        else (runToTemporary env polls fuel (s.tracked.cpu.pc + windowLength window)).run (s.asked io)
      else (debugStep env).run (s.asked io) := by
  have looked : (onMemory (Memory.readU32 env.host s.tracked.cpu.pc)).run s = .ok window (s.asked io) :=
    run_onMemory look
  rw [debugStepOver, run_bind, run_simCpu, Outcome.andThen_ok, run_bind, looked, Outcome.andThen_ok]
  by_cases call : isCallInstruction window = true
  · rw [if_pos call, if_pos call, run_bind]
    have sum : (env.build.addU32 s.tracked.cpu.pc (windowLength window) : Api U32) =
        if s.Wraps env window then panic else pure (s.tracked.cpu.pc + windowLength window) := rfl
    change (Outcome.andThen ((env.build.addU32 s.tracked.cpu.pc (windowLength window) : Api U32).run
      (s.asked io)) _) = _
    rw [sum]
    split <;> rfl
  · rw [if_neg call, if_neg call]

/-- A step over an instruction in memory. -/
theorem debugStepOver_run (below : s.tracked.cpu.pc.toNat + 4 ≤ 0xFFFF0000) :
    (debugStepOver env polls fuel).run s =
      if isCallInstruction (s.tracked.mem.wordAt s.tracked.cpu.pc) = true then
        (runToTemporary env polls fuel s.nextPc).run s
      else (debugStep env).run s := by
  have look : s.Looks env (s.tracked.mem.wordAt s.tracked.cpu.pc) s.tracked.machine.bus.world.io :=
    readU32_below env.host s.tracked.machine.bus below
  have room : ¬s.Wraps env (s.tracked.mem.wordAt s.tracked.cpu.pc) := by
    rintro ⟨-, past⟩
    have short : (windowLength (s.tracked.mem.wordAt s.tracked.cpu.pc)).toNat ≤ 4 := by
      unfold windowLength
      split <;> decide
    omega
  rw [debugStepOver_looked look, if_neg room]
  rfl

/-- A step of the debugger, without its layers. -/
theorem debugStep_run (s : Simulator) :
    (debugStep env).run s = ((stepInstruction env).run s.tracked).reshape
      (fun result t => .ok (match result with
        | .breakpointHit addr => t.cpu.snapshot true addr
        | _ => t.cpu.snapshot false 0) { s with tracked := t })
      (fun e _ => e.elim) := by
  rw [debugStep, run_bind, onTracked, run_zoom]
  cases (stepInstruction env).run s.tracked with
  | ok result t =>
    cases result <;> rfl
  | err e t => exact e.elim
  | panic => rfl
  | exhausted => rfl

/-- A run ends at a breakpoint or on a machine that stopped. -/
theorem runUntilBreakpoint_stops {first : Nat}
    (run : (runUntilBreakpoint env polls fuel first).run s = .ok snap s') :
    snap.isBreakpoint = true ∨ snap.isHalted = true := by
  induction fuel generalizing first s with
  | zero => cases run
  | succ fuel ih =>
    obtain ⟨out, t, sliced, ⟨-, rest⟩ | ⟨ended, rfl, rfl⟩⟩ := runUntilBreakpoint_ok.mp run
    · exact ih rest
    · obtain ⟨c, -, stop, -⟩ := runSlice_path sliced
      rw [SliceOutcome.shown]
      generalize out.status = status at stop ended
      cases stop with
      | running => exact absurd rfl ended
      | halted halted => exact .inr halted
      | breakpoint => exact .inl rfl
      | trapped => exact .inr rfl

theorem runUntilBreakpoint_stepCounter {first : Nat}
    (run : (runUntilBreakpoint env polls fuel first).run s = .ok snap s') :
    s.tracked.cpu.stepCounter ≤ s'.tracked.cpu.stepCounter := by
  refine (steady_runUntilBreakpoint (fun t => s.tracked.cpu.stepCounter ≤ t.cpu.stepCounter) ?_
    polls fuel first).ok run
    le_rfl
  intro poll budget out t t' sliced before
  rw [(runSlice_account sliced).counted]
  omega

/-- A run that executed nothing, or one instruction and then neither reported a breakpoint nor
trapped, is the start of its first slice; and after one instruction the machine has stopped. -/
theorem runUntilBreakpoint_first {first : Nat} (live : s.tracked.cpu.isHalted = false)
    (run : (runUntilBreakpoint env polls fuel first).run s = .ok snap s')
    (few : s'.tracked.cpu.stepCounter = s.tracked.cpu.stepCounter ∨
      s'.tracked.cpu.stepCounter = s.tracked.cpu.stepCounter + 1 ∧ snap.isBreakpoint = false ∧
        s'.tracked.cpu.trapped = false) :
    ∃ steps c, SlicePath env s.tracked.cpu.watches
        ⟨s.tracked.entry.skip, s.tracked.entry.state.polled (polls first 0)⟩ steps c ∧
      s'.tracked.cpu.csrs = c.state.cpu.csrs ∧
      s'.tracked.cpu.stepCounter = s.tracked.cpu.stepCounter + steps ∧
      (steps = 0 ∨ steps = 1 ∧ c.state.cpu.isHalted = true ∧ s'.tracked = c.state) := by
  cases fuel with
  | zero => cases run
  | succ fuel =>
    obtain ⟨out, t, sliced, next⟩ := runUntilBreakpoint_ok.mp run
    have account := runSlice_account sliced
    have counted := account.counted
    obtain ⟨c, path, stop⟩ := runSlice_polled live (by decide) sliced
    rcases next with ⟨running, rest⟩ | ⟨ended, rfl, rfl⟩
    · have spent : out.steps = 0xFFFFFFFF := (account.running running).1
      have later : t.cpu.stepCounter ≤ s'.tracked.cpu.stepCounter :=
        runUntilBreakpoint_stepCounter rest
      omega
    · refine ⟨out.steps, c, path, stop.csrs, counted, ?_⟩
      dsimp only at few ⊢
      rcases few with same | ⟨same, unreported, untrapped⟩
      · exact .inl (by omega)
      -- One instruction, no breakpoint and no trap: it stopped the machine.
      · refine .inr ⟨by omega, ?_⟩
        rw [SliceOutcome.shown] at unreported
        generalize status : out.status = status at stop ended unreported
        cases stop with
        | running => exact absurd rfl ended
        | halted halted => exact ⟨halted, rfl⟩
        | breakpoint => cases unreported
        | trapped => exact absurd ((account.trapped status).1.symm.trans untrapped) (by decide)

/-- An interrupt at the first poll shows, unless an instruction unmasked it again. -/
theorem runUntilBreakpoint_interrupted {first : Nat} (live : s.tracked.cpu.isHalted = false)
    (delivers : (polls first 0).delivers s.tracked.cpu = true)
    (run : (runUntilBreakpoint env polls fuel first).run s = .ok snap s')
    (few : s'.tracked.cpu.stepCounter = s.tracked.cpu.stepCounter ∨
      s'.tracked.cpu.stepCounter = s.tracked.cpu.stepCounter + 1 ∧ snap.isBreakpoint = false ∧
        s'.tracked.cpu.trapped = false) : s'.tracked.cpu.interruptsEnabled = false := by
  obtain ⟨steps, c, path, csrs, -, short⟩ := runUntilBreakpoint_first live run few
  have taken : s.tracked.entry.state.polled (polls first 0) =
      s.tracked.entry.state.interrupted (polls first 0).externalInterrupt := if_pos delivers
  rw [taken] at path
  rw [Cpu.interruptsEnabled, csrs]
  refine path.masked live (interruptsEnabled_handleInterrupt _ _) ?_
  rcases short with none | ⟨one, halted, -⟩
  · exact .inl none
  · exact .inr ⟨one, halted⟩

theorem runUntilBreakpoint_once {first : Nat} {out : SliceOutcome} {t : Tracked}
    (sliced : (runSlice env (polls first) 0xFFFFFFFF).run s.tracked = .ok out t)
    (ended : out.status ≠ .running) :
    (runUntilBreakpoint env polls (fuel + 1) first).run s = .ok (out.shown t.cpu)
    { s with tracked := t } :=
  runUntilBreakpoint_ok.mpr ⟨out, t, sliced, .inr ⟨ended, rfl, rfl⟩⟩

/-- A temporary breakpoint elsewhere changes nothing where the machine stands. -/
theorem watching_stepHit (s : Simulator) {addr : U32} (apart : addr ≠ s.tracked.cpu.pc) :
    (s.watching addr).tracked.cpu.StepHit ↔ s.tracked.cpu.StepHit := by
  have member : s.tracked.cpu.pc ∈ insert addr s.tracked.cpu.breakpoints ↔
      s.tracked.cpu.pc ∈ s.tracked.cpu.breakpoints := by
    rw [Finset.mem_insert]
    exact ⟨fun either => either.resolve_left apart.symm, .inr⟩
  exact and_congr_right' (and_congr_left' member)

end Commands

end RiscvRs
