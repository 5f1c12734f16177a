import RiscvRs.Exec.Expansion

/-! How the length of an instruction enters its effect, and from it that a
compressed instruction is its expansion but for that length. -/

namespace RiscvRs

open Effects Prog

namespace DecodedInst32

/-- The register that receives the return address. -/
def link? (inst : DecodedInst32) : Option (Fin 32) :=
  match Opcode.ofBits? inst.opcode with
  | some .jal | some .jalr => if inst.rd = 0 then none else some inst.rd
  | _ => none

/-- Whether control goes to a target instead of falling through. -/
def jumps (inst : DecodedInst32) (cpu : Cpu) : Bool :=
  match Opcode.ofBits? inst.opcode with
  | some .jal | some .jalr => true
  | some .branch =>
    branchTaken inst.funct3 (cpu.readReg inst.rs1) (cpu.readReg inst.rs2) == some true
  | some .system => inst.funct3 == 0 && inst.raw >>> 20 == 0x302 && cpu.csrs.get mepc != 0
  | _ => false

end DecodedInst32

/-- Two machines after `inst` from one processor state, once with the
fall-through address `n` and once with `n'`. -/
structure Agree (inst : DecodedInst32) (before : Cpu) (n n' : U32) (a b : Machine) : Prop where
  bus : a.bus = b.bus
  cpu : a.cpu = { b.cpu with regs := a.cpu.regs, pc := a.cpu.pc }
  regs : ∀ r, inst.link? ≠ some r → a.cpu.regs r = b.cpu.regs r
  link : ∀ r, inst.link? = some r → a.cpu.regs r = n ∧ b.cpu.regs r = n'
  jump : inst.jumps before = true → a.cpu.pc = b.cpu.pc
  fall : inst.jumps before = false → a.cpu.pc = n ∧ b.cpu.pc = n'

def Machine.goto (m : Machine) (target : U32) : Machine :=
  { m with cpu := { m.cpu with pc := target } }

/-- A program that does the same for every fall-through address and returns it. -/
def FallsThrough (f : U32 → Exec U32) : Prop := ∃ x : Exec Unit, ∀ n, f n = x >>= fun _ => pure n

section Programs

variable {α : Type}

theorem fallsThrough_pure : FallsThrough fun n => pure n := ⟨pure (), fun _ => rfl⟩

theorem fallsThrough_then (x : Exec Unit) : FallsThrough fun n => x >>= fun _ => pure n :=
  ⟨x, fun _ => rfl⟩

theorem fallsThrough_bind (x : Exec α) {f : α → U32 → Exec U32} (rest : ∀ a, FallsThrough (f a)) :
    FallsThrough fun n => x >>= fun a => f a n := by
  choose y shape using rest
  refine ⟨x >>= y, fun n => ?_⟩
  rw [bind_assoc]
  exact congrArg _ (funext fun a => shape a n)

theorem fallsThrough_illegal (raw : U32) : FallsThrough fun _ => illegal raw :=
  ⟨illegal raw, fun _ => rfl⟩

end Programs

section Lengths

variable {env : Env} {m : Machine} {inst : DecodedInst32} {n n' : U32}

/-- The same machine before `pc` moves. -/
theorem agree_goto {a : Machine} {next next' : U32} (unlinked : inst.link? = none)
    (jump : inst.jumps m.cpu = true → next = next')
    (fall : inst.jumps m.cpu = false → next = n ∧ next' = n') :
    Agree inst m.cpu n n' (a.goto next) (a.goto next') where
  bus := rfl
  cpu := rfl
  regs := fun _ _ => rfl
  link := fun r linked => by
    rw [unlinked] at linked
    cases linked
  jump := jump
  fall := fall

/-- The link register is all that differs after a linking jump. -/
theorem agree_link {target : U32} (linked : inst.link? = if inst.rd = 0 then none else some inst.rd)
    (jumps : inst.jumps m.cpu = true) :
    Agree inst m.cpu n n' (Machine.goto { m with cpu := m.cpu.writeReg inst.rd n } target)
      (Machine.goto { m with cpu := m.cpu.writeReg inst.rd n' } target) := by
  by_cases zero : inst.rd = 0
  · rw [if_pos zero] at linked
    simp only [Cpu.writeReg, if_neg (not_not.mpr zero)]
    refine agree_goto linked (fun _ => rfl) fun falls => ?_
    rw [jumps] at falls
    cases falls
  · rw [if_neg zero] at linked
    simp only [Cpu.writeReg, if_pos zero]
    refine ⟨rfl, rfl, ?_, ?_, fun _ => rfl, ?_⟩
    · intro r other
      have different : r ≠ inst.rd := by
        rintro rfl
        exact other linked
      simp only [Machine.goto, Function.update_of_ne different]
    · intro r here
      obtain rfl : inst.rd = r := Option.some.inj (linked.symm.trans here)
      simp only [Machine.goto, Function.update_self, and_self]
    · intro falls
      rw [jumps] at falls
      cases falls

/-- The instruction with fall-through `n'` ends too, and agrees. -/
def Agrees (env : Env) (m : Machine) (inst : DecodedInst32) (n n' next : U32)
    (a : Machine) : Prop :=
  ∃ next' b, (executeInst32.dispatch env inst m.cpu.pc n').run m = .ok next' b ∧
    Agree inst m.cpu n n' (a.goto next) (b.goto next')

theorem agrees_of_fallsThrough {next : U32} {a : Machine}
    (falls : FallsThrough (executeInst32.dispatch env inst m.cpu.pc)) (unlinked : inst.link? = none)
    (stays : inst.jumps m.cpu = false)
    (run : (executeInst32.dispatch env inst m.cpu.pc n).run m = .ok next a) :
    Agrees env m inst n n' next a := by
  obtain ⟨x, shape⟩ := falls
  rw [shape, bind_ok] at run
  obtain ⟨_, m', ran, returned⟩ := run
  cases returned
  refine ⟨n', a, ?_, agree_goto unlinked (fun jumps => ?_) fun _ => ⟨rfl, rfl⟩⟩
  · rw [shape, run_bind, ran]
    rfl
  · rw [stays] at jumps
    cases jumps

theorem fallsThrough_rv32i {code : Opcode} (major : Opcode.ofBits? inst.opcode = some code)
    (straight : code ≠ .jal ∧ code ≠ .jalr ∧ code ≠ .branch) :
    FallsThrough (execRv32i env inst) := by
  obtain ⟨notJal, notJalr, notBranch⟩ := straight
  unfold execRv32i
  refine fallsThrough_bind _ fun cpu => ?_
  rw [major]
  cases code with
  | jal => exact absurd rfl notJal
  | jalr => exact absurd rfl notJalr
  | branch => exact absurd rfl notBranch
  | lui => exact fallsThrough_then _
  | auipc => exact fallsThrough_then _
  | load => exact fallsThrough_bind _ fun _ => fallsThrough_then _
  | store => exact fallsThrough_then _
  | imm => exact fallsThrough_bind _ fun _ => fallsThrough_then _
  | op => exact fallsThrough_bind _ fun _ => fallsThrough_then _
  | miscMem => exact fallsThrough_pure
  | system => exact fallsThrough_illegal _
  | amo => exact fallsThrough_illegal _
  | loadFp => exact fallsThrough_illegal _
  | storeFp => exact fallsThrough_illegal _
  | madd => exact fallsThrough_illegal _
  | msub => exact fallsThrough_illegal _
  | nmsub => exact fallsThrough_illegal _
  | nmadd => exact fallsThrough_illegal _
  | opFp => exact fallsThrough_illegal _

/-- Every instruction but the transfers of control. -/
theorem fallsThrough_dispatch {code : Opcode} (major : Opcode.ofBits? inst.opcode = some code)
    (straight : code ≠ .jal ∧ code ≠ .jalr ∧ code ≠ .branch) (user : code ≠ .system) (pc : U32) :
    FallsThrough (executeInst32.dispatch env inst pc) := by
  have base : FallsThrough (execRv32i env inst) := fallsThrough_rv32i major straight
  unfold executeInst32.dispatch
  rw [major]
  cases code with
  | system => exact absurd rfl user
  | op =>
    by_cases muldiv : inst.funct7 = 0x01
    · simp only [if_pos muldiv]
      exact fallsThrough_then _
    · simp only [if_neg muldiv]
      exact base
  | amo => exact fallsThrough_then _
  | loadFp => exact fallsThrough_then _
  | storeFp => exact fallsThrough_then _
  | madd => exact fallsThrough_then _
  | msub => exact fallsThrough_then _
  | nmsub => exact fallsThrough_then _
  | nmadd => exact fallsThrough_then _
  | opFp => exact fallsThrough_then _
  | _ => exact base

/-- `SYSTEM` falls through but for an `MRET` with a return address. -/
theorem agrees_system {next : U32} {a : Machine} (major : Opcode.ofBits? inst.opcode = some .system)
    (run : (executeInst32.dispatch env inst m.cpu.pc n).run m = .ok next a) :
    Agrees env m inst n n' next a := by
  have unlinked : inst.link? = none := by simp only [DecodedInst32.link?, major]
  have shape (n : U32) : executeInst32.dispatch env inst m.cpu.pc n = execCsr env inst n := by
    simp only [executeInst32.dispatch, major]
  by_cases mret : inst.funct3 = 0 ∧ inst.raw >>> 20 = 0x302
  · have returns (n : U32) : (execCsr env inst n).run m =
        .ok (if m.cpu.csrs.get mepc ≠ 0 then m.cpu.csrs.get mepc else n)
          { m with cpu := m.cpu.mret } := by
      simp only [execCsr, run_bind, run_getCpu, Outcome.andThen_ok, mret.1, mret.2, ↓reduceIte]
      rfl
    have jumps : inst.jumps m.cpu = (m.cpu.csrs.get mepc != 0) := by
      simp only [DecodedInst32.jumps, major, mret.1, mret.2, beq_self_eq_true, Bool.true_and]
    rw [shape, returns] at run
    cases run
    refine ⟨_, _, (congrArg (Prog.run · m) (shape n')).trans (returns n'),
      agree_goto unlinked ?_ ?_⟩
    · intro leaves
      have nonzero : m.cpu.csrs.get mepc ≠ 0 := by simpa [jumps] using leaves
      rw [if_pos nonzero, if_pos nonzero]
    · intro stays
      have zero : ¬m.cpu.csrs.get mepc ≠ 0 := by simpa [jumps] using stays
      rw [if_neg zero, if_neg zero]
      exact ⟨rfl, rfl⟩
  · refine agrees_of_fallsThrough ?_ unlinked ?_ run
    · have same : executeInst32.dispatch env inst m.cpu.pc = execCsr env inst := funext shape
      rw [same]
      unfold execCsr
      refine fallsThrough_bind _ fun cpu => ?_
      by_cases minor : inst.funct3 = 0
      · have other : ¬inst.raw >>> 20 = 0x302 := fun top => mret ⟨minor, top⟩
        simp only [if_pos minor, if_neg other]
        by_cases ecall : inst.raw >>> 20 = 0
        · simp only [if_pos ecall]
          exact fallsThrough_then _
        · by_cases ebreak : inst.raw >>> 20 = 1
          · simp only [if_neg ecall, if_pos ebreak]
            exact fallsThrough_then _
          · simp only [if_neg ecall, if_neg ebreak]
            exact fallsThrough_pure
      · simp only [if_neg minor]
        exact fallsThrough_bind _ fun _ => fallsThrough_then _
    · simp only [DecodedInst32.jumps, major]
      rw [Bool.eq_false_iff]
      intro leaves
      simp only [Bool.and_eq_true, beq_iff_eq] at leaves
      exact mret leaves.1

theorem agrees_jump {next : U32} {a : Machine} {code : Opcode} {target : U32}
    (major : Opcode.ofBits? inst.opcode = some code) (linking : code = .jal ∨ code = .jalr)
    (shape : ∀ n, (executeInst32.dispatch env inst m.cpu.pc n).run m =
      .ok target { m with cpu := m.cpu.writeReg inst.rd n })
    (run : (executeInst32.dispatch env inst m.cpu.pc n).run m = .ok next a) :
    Agrees env m inst n n' next a := by
  rw [shape] at run
  cases run
  refine ⟨_, _, shape n', agree_link ?_ ?_⟩
  · rcases linking with rfl | rfl <;> simp only [DecodedInst32.link?, major]
  · rcases linking with rfl | rfl <;> simp only [DecodedInst32.jumps, major]

theorem agrees_branch {next : U32} {a : Machine} (major : Opcode.ofBits? inst.opcode = some .branch)
    (run : (executeInst32.dispatch env inst m.cpu.pc n).run m = .ok next a) :
    Agrees env m inst n n' next a := by
  have unlinked : inst.link? = none := by simp only [DecodedInst32.link?, major]
  have shape (n : U32) : (executeInst32.dispatch env inst m.cpu.pc n).run m =
      ((orIllegal inst.raw
        (branchTaken inst.funct3 (m.cpu.readReg inst.rs1) (m.cpu.readReg inst.rs2))).run m).andThen
        fun take m' => .ok (if take then m.cpu.pc + inst.bImm else n) m' := by
    simp only [executeInst32.dispatch, execRv32i, major]
    rfl
  cases decision : branchTaken inst.funct3 (m.cpu.readReg inst.rs1) (m.cpu.readReg inst.rs2) with
  | none =>
    rw [shape, decision] at run
    cases run
  | some take =>
    have jumps : inst.jumps m.cpu = take := by
      simp only [DecodedInst32.jumps, major, decision]
      cases take <;> rfl
    simp only [decision, orIllegal, run_pure, Outcome.andThen_ok] at shape
    rw [shape] at run
    cases run
    refine ⟨_, _, shape n', agree_goto unlinked ?_ ?_⟩
    · intro leaves
      rw [if_pos (jumps.symm.trans leaves), if_pos (jumps.symm.trans leaves)]
    · intro stays
      have falls : ¬take = true := by simpa [jumps] using stays
      rw [if_neg falls, if_neg falls]
      exact ⟨rfl, rfl⟩

/-- The length of an instruction shows in the fall-through address and the link alone. -/
theorem dispatch_agrees {next : U32} {a : Machine}
    (run : (executeInst32.dispatch env inst m.cpu.pc n).run m = .ok next a) :
    Agrees env m inst n n' next a := by
  cases major : Opcode.ofBits? inst.opcode with
  | none =>
    simp only [executeInst32.dispatch, major] at run
    cases run
  | some code =>
    by_cases jal : code = .jal
    · subst jal
      have shape (n : U32) : (executeInst32.dispatch env inst m.cpu.pc n).run m =
          .ok (m.cpu.pc + inst.jImm) { m with cpu := m.cpu.writeReg inst.rd n } := by
        simp only [executeInst32.dispatch, execRv32i, major]
        rfl
      exact agrees_jump major (.inl rfl) shape run
    · by_cases jalr : code = .jalr
      · subst jalr
        have shape (n : U32) : (executeInst32.dispatch env inst m.cpu.pc n).run m =
            .ok ((m.cpu.readReg inst.rs1 + inst.iImm) &&& ~~~1)
              { m with cpu := m.cpu.writeReg inst.rd n } := by
          simp only [executeInst32.dispatch, execRv32i, major]
          rfl
        exact agrees_jump major (.inr rfl) shape run
      · by_cases branch : code = .branch
        · subst branch
          exact agrees_branch major run
        · by_cases system : code = .system
          · subst system
            exact agrees_system major run
          · refine agrees_of_fallsThrough
              (fallsThrough_dispatch major ⟨jal, jalr, branch⟩ system _) ?_ ?_ run
            · cases code <;> simp_all [DecodedInst32.link?]
            · cases code <;> simp_all [DecodedInst32.jumps]

end Lengths

/-- A compressed instruction is its expansion: the same memory, device accesses,
registers and flags, where the fall-through address and the link are two bytes on
instead of four. Plain additions of the 32-bit interpreter are taken modulo `2 ^ 32`. -/
theorem compressed_is_expansion (env : Env) (m m16 : Machine) (c : U16)
    (run : (executeInst16 env c).run m = .ok () m16)
    (modular : ∀ addr r, (Fetched.half c).doubleLoad? m.cpu = some (addr, r) ∨
      (Fetched.half c).doubleStore? m.cpu = some (addr, r) → Modular env addr) :
    ∃ e m32, Isa.expand c = some e ∧ (executeInst32 env e).run m = .ok () m32 ∧
      Agree (DecodedInst32.decode e) m.cpu (m.cpu.pc + 2) (m.cpu.pc + 4) m16 m32 := by
  rw [executeInst16_run] at run
  cases half : (execQuadrant env c (DecodedInst16.decode c).op (DecodedInst16.decode c).funct3
    (m.cpu.pc + 2)).run m with
  | ok next a =>
    rw [half] at run
    cases run
    obtain ⟨e, expansion, same⟩ := quadrant_matches c modular next a half
    obtain ⟨next', b, full, agree⟩ : Agrees env m (DecodedInst32.decode e) (m.cpu.pc + 2)
      (m.cpu.pc + 4) next a :=
      dispatch_agrees same
    refine ⟨e, b.goto next', expansion, ?_, agree⟩
    rw [executeInst32_run, full]
    rfl
  | err error a =>
    rw [half] at run
    cases run
  | panic =>
    rw [half] at run
    cases run
  | exhausted =>
    rw [half] at run
    cases run

/-- `c.fldsp f8, 0(sp)` and `fld f8, 0(sp)` on the initial machine. -/
theorem compressed_is_expansion_fldsp :
    ∃ m16 m32, (executeInst16 default 0x2402).run Machine.new = .ok () m16 ∧
      (executeInst32 default 0x00013407).run Machine.new = .ok () m32 ∧
      m16.bus = m32.bus ∧ m16.cpu.fregs = m32.cpu.fregs ∧ m16.cpu.pc = 2 ∧ m32.cpu.pc = 4 := by
  have modular (addr : U32) (r : Fin 32)
    (_ : (Fetched.half 0x2402).doubleLoad? Machine.new.cpu = some (addr, r) ∨
      (Fetched.half 0x2402).doubleStore? Machine.new.cpu = some (addr, r)) : Modular default addr :=
        .inl rfl
  obtain ⟨m16, half⟩ : ∃ m16, (executeInst16 default 0x2402).run Machine.new = .ok () m16 := ⟨_, rfl⟩
  obtain ⟨e, m32, expansion, run, agree⟩ :=
    compressed_is_expansion default Machine.new m16 0x2402 half modular
  obtain rfl : e = 0x00013407 := Option.some.inj (expansion.symm.trans (by decide))
  obtain ⟨short, long⟩ := agree.fall rfl
  have floats : m16.cpu.fregs = m32.cpu.fregs := by rw [agree.cpu]
  exact ⟨m16, m32, half, run, agree.bus, floats, short, long⟩

end RiscvRs
