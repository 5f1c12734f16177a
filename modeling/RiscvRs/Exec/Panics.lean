import RiscvRs.Exec.Decoding
import RiscvRs.Exec.Effects
import RiscvRs.Memory.Total

/-! Which instructions can panic: the double accesses of the full encodings, whose
second address is computed with a plain `+`, and nothing else. -/

namespace RiscvRs

open Effects Prog

/-- `read_from_stdin` returns at most the count it was given. -/
def Host.ReadsWithinCount (host : Host) : Prop :=
  ∀ io count, (host.readFromStdin io count).1.toInt ≤ count.toNat

section Syscalls

variable {ε α : Type} {env : Env}

theorem total_onBus {x : Prog Bus ε α} (inner : Total x) : Total (onBus x) := yields_zoom inner

@[simp] theorem total_getCpu : Total (getCpu : Prog Machine ε Cpu) :=
  total_bind total_get fun _ => total_pure _

@[simp] theorem total_modifyCpu (f : Cpu → Cpu) : Total (modifyCpu f : Prog Machine ε Unit) :=
  total_modify _

@[simp] theorem total_illegal (raw : U32) : Total (illegal raw : Exec α) :=
  total_bind total_getCpu fun _ => total_fail _

@[simp] theorem total_orIllegal (raw : U32) (result : Option α) : Total (orIllegal raw result) := by
  cases result with
  | none => exact total_illegal raw
  | some a => exact total_pure a

/-- The buffer has the length asked for, whatever the host put into it. -/
theorem yields_readFromStdin (bounded : env.host.ReadsWithinCount) {count : Nat}
    (small : count < 2 ^ 32) :
    Yields (fun answer : U32 × List U8 => answer.1.toInt ≤ count ∧ answer.2.length = count)
      (readFromStdin env.host count : Prog Bus ε _) := by
  intro bus
  refine .inl ⟨_, _, rfl, ?_, ?_⟩
  · have within := bounded bus.world.io (BitVec.ofNat 32 count)
    rwa [BitVec.toNat_ofNat, Nat.mod_eq_of_lt small] at within
  · simp only [List.length_append, List.length_take, List.length_replicate]
    omega

theorem transferCount_lt (a2 : U32) : transferCount a2 < 2 ^ 32 := by
  have bound := a2.isLt
  unfold transferCount
  omega

theorem total_sysWrite (a0 a1 a2 : U32) : Total (sysWrite env a0 a1 a2) := by
  refine total_bind (total_onBus (total_readBytes _ _ _)) fun bytes => ?_
  dsimp only
  split
  · exact total_bind (total_onBus (total_modify _)) fun _ => total_modifyCpu _
  · split
    · exact total_bind (total_onBus (total_modify _)) fun _ => total_modifyCpu _
    · exact total_modifyCpu _

/-- The slice of the scratch buffer exists because the host kept to its count. -/
theorem total_sysRead (bounded : env.host.ReadsWithinCount) (a1 a2 : U32) :
    Total (sysRead env a1 a2) := by
  refine yields_bind (yields_zoom (yields_readFromStdin bounded (transferCount_lt a2))) ?_
  rintro ⟨bytesRead, scratch⟩ ⟨within, size⟩
  dsimp only at within size ⊢
  split
  · next positive =>
    have natural : (bytesRead.toNat : Int) = bytesRead.toInt := by
      have bound := bytesRead.isLt
      rw [BitVec.toInt_eq_toNat_cond] at positive ⊢
      split at positive <;> omega
    obtain ⟨part, sliced, -⟩ : ∃ part, sliceOf? scratch 0 bytesRead.toNat = some part ∧
      part.length = bytesRead.toNat :=
      length_sliceOf? (by omega)
    rw [sliced, expect_some, pure_bind]
    exact total_bind (total_onBus (total_writeBytes _ _)) fun _ => total_modifyCpu _
  · exact total_modifyCpu _

theorem total_sysBrk (a0 : U32) : Total (sysBrk a0) := by
  have answer : Total (do
      let brk ← onBus Memory.getBrk
      modifyCpu (·.writeReg 10 brk) : Exec Unit) :=
    total_bind (total_onBus (total_bind total_get fun _ => total_pure _)) fun _ => total_modifyCpu _
  have set : Total (onBus (Memory.setBrk a0) : Exec Unit) := by
    refine total_onBus (total_bind total_get fun bus => ?_)
    split
    · exact total_modify _
    · exact total_pure _
  unfold sysBrk
  split
  · exact total_bind set fun _ => answer
  · exact answer

theorem total_builtinSyscall (bounded : env.host.ReadsWithinCount) (a0 a1 a2 a3 a7 : U32) :
    Total (builtinSyscall env a0 a1 a2 a3 a7) := by
  unfold builtinSyscall
  split
  · exact total_modifyCpu _
  · split
    · exact total_sysWrite a0 a1 a2
    · split
      · exact total_sysRead bounded a1 a2
      · split
        · exact total_sysBrk a0
        · split
          · exact total_modifyCpu _
          · exact total_fail _

theorem total_handleEcall (bounded : env.host.ReadsWithinCount) : Total (handleEcall env) := by
  refine total_bind total_getCpu fun cpu => ?_
  have answered (res a0 a1 a2 a3 a7 : U32) : Total
      (if res ≠ 0 then modifyCpu (·.writeReg regA0 res) else builtinSyscall env a0 a1 a2 a3 a7) := by
    split
    · exact total_modifyCpu _
    · exact total_builtinSyscall bounded _ _ _ _ _
  dsimp only
  split
  · refine total_bind (total_onBus ?_) fun res => answered res _ _ _ _ _
    exact total_bind total_get fun _ => total_bind (total_modify _) fun _ => total_pure _
  · exact total_bind (total_pure _) fun res => answered res _ _ _ _ _

end Syscalls

/-- The second word of a double lies behind the end of the address space. -/
def PastTop (addr : U32) : Prop := 2 ^ 32 ≤ addr.toNat + 4

instance (addr : U32) : Decidable (PastTop addr) := inferInstanceAs (Decidable (_ ≤ _))

/-- The operation adds past the top with a plain `+`. -/
def Op.Overflows : Op → Prop
  | loadDouble true _ addr _ | storeDouble true _ addr _ => PastTop addr
  | _ => False

theorem Op.overflows_loadDouble (plain : Bool) (rd : Fin 32) (addr next : U32) :
    (Op.loadDouble plain rd addr next).Overflows ↔ plain = true ∧ PastTop addr := by
  cases plain with
  | false => exact iff_of_false id (fun past => Bool.false_ne_true past.1)
  | true => exact (and_iff_right rfl).symm

theorem Op.overflows_storeDouble (plain : Bool) (bits : U64) (addr next : U32) :
    (Op.storeDouble plain bits addr next).Overflows ↔ plain = true ∧ PastTop addr := by
  cases plain with
  | false => exact iff_of_false id (fun past => Bool.false_ne_true past.1)
  | true => exact (and_iff_right rfl).symm

/-- A full-width `FLD` or `FSD` whose second word lies behind the top. -/
def Fetched.Overflows (cpu : Cpu) : Fetched → Prop
  | half _ => False
  | word raw =>
    let inst := DecodedInst32.decode raw
    inst.funct3 = 3 ∧
      ((Opcode.ofBits? inst.opcode = some .loadFp ∧ PastTop (cpu.readReg inst.rs1 + inst.iImm)) ∨
        (Opcode.ofBits? inst.opcode = some .storeFp ∧ PastTop (cpu.readReg inst.rs1 + inst.sImm)))

section Operations

variable {env : Env}

/-- The second address panics exactly past the top of a checked build. -/
theorem ends_secondWord_iff (plain : Bool) (addr : U32) (m : Machine) :
    ((env.build.secondWord plain addr : Exec U32).run m).Ends ↔
      ¬(env.build.overflowChecks = true ∧ plain = true ∧ PastTop addr) := by
  unfold Build.secondWord Build.addU32
  cases plain with
  | false => exact iff_of_true trivial (fun past => Bool.false_ne_true past.2.1)
  | true =>
    simp only [true_and, if_true]
    split
    · next past => exact iff_of_false id (not_not.mpr past)
    · next short => exact iff_of_true trivial short

/-- Neither a double access nor a system call. -/
def Op.Simple : Op → Prop
  | loadDouble .. | storeDouble .. | ecall _ => False
  | _ => True

theorem total_loadWord (env : Env) (addr : U32) :
    Total (onBus (Memory.readU32 env.host addr) : Exec U32) :=
  total_onBus (total_readU32 _ _)

theorem total_storeWord (addr val : U32) : Total (onBus (Memory.writeU32 addr val) : Exec Unit) :=
  total_onBus (total_writeU32 _ _)

/-- The simple operations end on every build and with every host. -/
theorem Op.total_exec {op : Op} (simple : op.Simple) : Total (op.exec env) := by
  cases op with
  | goto next => exact total_pure next
  | write rd val next => exact total_bind (total_modifyCpu _) fun _ => total_pure _
  | writeF rd bits next => exact total_bind (total_modifyCpu _) fun _ => total_pure _
  | halt next => exact total_bind (total_modifyCpu _) fun _ => total_pure _
  | load kind rd addr next =>
    exact total_bind (total_onBus (total_readAt _ _ _)) fun _ => total_bind (total_modifyCpu _)
      fun _ => total_pure _
  | loadSingle rd addr next =>
    exact total_bind (total_loadWord env addr) fun _ => total_bind (total_modifyCpu _) fun _ =>
      total_pure _
  | store width addr val next =>
    exact total_bind (total_onBus (total_writeAt _ _ _)) fun _ => total_pure _
  | amo raw funct5 rd addr src next =>
    refine total_bind (total_loadWord env addr) fun oldVal => total_bind (total_orIllegal _ _)
      fun newVal => ?_
    dsimp only
    split
    · exact total_bind (total_storeWord _ _) fun _ => total_bind (total_modifyCpu _) fun _ =>
        total_pure _
    · exact total_bind (total_modifyCpu _) fun _ => total_pure _
  | mret next => exact total_bind (total_modifyCpu _) fun _ => total_pure _
  | csr num newVal rd oldVal next =>
    exact total_bind (total_modifyCpu _) fun _ => total_bind (total_modifyCpu _) fun _ => total_pure _
  | illegal raw => exact total_illegal raw
  | unknown opcode => exact total_bind total_getCpu fun _ => total_fail _
  | loadDouble | storeDouble | ecall => exact simple.elim

theorem Op.ends_exec_iff (bounded : env.host.ReadsWithinCount) (op : Op) (m : Machine) :
    ((op.exec env).run m).Ends ↔ ¬(env.build.overflowChecks = true ∧ op.Overflows) := by
  have fine {x : Exec U32} (total : Total x) : (x.run m).Ends ↔
    ¬(env.build.overflowChecks = true ∧ False) :=
    iff_of_true (total.ends m) And.right
  -- the second address is the only step of a double access that can panic
  have second (plain : Bool) (addr : U32) {m : Machine} {f : U32 → Exec U32}
    (rest : ∀ a, Total (f a)) :
      ((env.build.secondWord plain addr >>= f).run m).Ends ↔
        ¬(env.build.overflowChecks = true ∧ plain = true ∧ PastTop addr) :=
    (ends_bind_iff rest m).trans (ends_secondWord_iff plain addr m)
  cases op with
  | loadDouble plain rd addr next =>
    obtain ⟨low, m₁, read⟩ := (total_loadWord env addr).ok (ask_readU32 _ _) m
    rw [Op.exec, ends_bind_of_ok read, second plain addr fun _ =>
      total_bind (total_loadWord env _) fun _ =>
      total_bind (total_modifyCpu _) fun _ => total_pure _, Op.overflows_loadDouble]
  | storeDouble plain bits addr next =>
    obtain ⟨_, m₁, written⟩ := (total_storeWord addr _).ok (steady_storeU32 _ _) m
    rw [Op.exec, ends_bind_of_ok written, second plain addr fun _ =>
      total_bind (total_storeWord _ _) fun _ =>
      total_pure _, Op.overflows_storeDouble]
  | ecall next => exact fine (total_bind (total_handleEcall bounded) fun _ => total_pure _)
  | _ => exact fine (Op.total_exec trivial)

end Operations

section Decoding

theorem Op.not_overflows {op : Op} (common : op.Common) : ¬op.Overflows := by
  cases op with
  | loadDouble plain rd addr next =>
    rw [Op.overflows_loadDouble]
    exact fun past => Bool.false_ne_true (common.symm.trans past.1)
  | storeDouble plain bits addr next =>
    rw [Op.overflows_storeDouble]
    exact fun past => Bool.false_ne_true (common.symm.trans past.1)
  | _ => exact id

theorem overflows_loadFpOp_iff (inst : DecodedInst32) (cpu : Cpu) (next : U32) :
    (inst.loadFpOp cpu next).Overflows ↔ inst.funct3 = 3 ∧
      PastTop (cpu.readReg inst.rs1 + inst.iImm) := by
  unfold DecodedInst32.loadFpOp
  dsimp only
  split
  · next single =>
      exact iff_of_false id fun double => absurd (single.symm.trans double.1) (by decide)
  · split
    · next double => exact (and_iff_right double).symm
    · next other => exact iff_of_false id fun double => other double.1

theorem overflows_storeFpOp_iff (inst : DecodedInst32) (cpu : Cpu) (next : U32) :
    (inst.storeFpOp cpu next).Overflows ↔ inst.funct3 = 3 ∧
      PastTop (cpu.readReg inst.rs1 + inst.sImm) := by
  unfold DecodedInst32.storeFpOp
  dsimp only
  split
  · next single =>
      exact iff_of_false id fun double => absurd (single.symm.trans double.1) (by decide)
  · split
    · next double => exact (and_iff_right double).symm
    · next other => exact iff_of_false id fun double => other double.1

/-- The operations that overflow are the two double accesses of the full encodings. -/
theorem Fetched.overflows_op_iff (env : Env) (cpu : Cpu) (inst : Fetched) :
    (inst.op env cpu).Overflows ↔ inst.Overflows cpu := by
  cases inst with
  | half inst => exact iff_of_false (Op.not_overflows (common_quadrantOp inst cpu _ _ _)) id
  | word raw =>
    simp only [Fetched.op, Fetched.Overflows]
    generalize DecodedInst32.decode raw = inst
    generalize cpu.pc + 4 = next
    by_cases load : Opcode.ofBits? inst.opcode = some .loadFp
    · simp [DecodedInst32.op, load, overflows_loadFpOp_iff]
    · by_cases store : Opcode.ofBits? inst.opcode = some .storeFp
      · simp [DecodedInst32.op, store, overflows_storeFpOp_iff]
      · by_cases atomic : Opcode.ofBits? inst.opcode = some .amo
        · simp [DecodedInst32.op, atomic, DecodedInst32.amoOp, Op.Overflows]
        · simp [load, store, Op.not_overflows (inst.common_op env cpu next load store atomic)]

variable {env : Env}

/-- One instruction panics exactly there, and only in a checked build. -/
theorem Fetched.ends_execute_iff (bounded : env.host.ReadsWithinCount) (inst : Fetched) (m : Machine) :
    ((inst.execute env).run m).Ends ↔
      ¬(env.build.overflowChecks = true ∧ inst.Overflows m.cpu) := by
  rw [← inst.overflows_op_iff env, ← Op.ends_exec_iff bounded _ m, inst.execute_run]
  cases ((inst.op env m.cpu).exec env).run m <;> rfl

end Decoding

section Fuel

variable {env : Env}

/-- A host that answers too much makes the read panic, not run on. -/
theorem fueled_sysRead (a1 a2 : U32) : Fueled (sysRead env a1 a2) := by
  have asked : Total (onBus (readFromStdin env.host (transferCount a2)) : Exec _) :=
    total_onBus fun bus => .inl ⟨_, _, rfl, trivial⟩
  refine fueled_bind asked.fueled ?_
  rintro ⟨bytesRead, scratch⟩
  dsimp only
  split
  · refine fueled_bind (fueled_expect _) fun bytes => Total.fueled ?_
    exact total_bind (total_onBus (total_writeBytes _ _)) fun _ => total_modifyCpu _
  · exact (total_modifyCpu _).fueled

theorem fueled_builtinSyscall (a0 a1 a2 a3 a7 : U32) :
    Fueled (builtinSyscall env a0 a1 a2 a3 a7) := by
  unfold builtinSyscall
  split
  · exact (total_modifyCpu _).fueled
  · split
    · exact (total_sysWrite a0 a1 a2).fueled
    · split
      · exact fueled_sysRead a1 a2
      · split
        · exact (total_sysBrk a0).fueled
        · split
          · exact (total_modifyCpu _).fueled
          · exact (total_fail _).fueled

theorem fueled_handleEcall : Fueled (handleEcall env) := by
  have answered (res a0 a1 a2 a3 a7 : U32) : Fueled
      (if res ≠ 0 then modifyCpu (·.writeReg regA0 res) else builtinSyscall env a0 a1 a2 a3 a7) := by
    split
    · exact (total_modifyCpu _).fueled
    · exact fueled_builtinSyscall _ _ _ _ _
  refine fueled_bind total_getCpu.fueled fun cpu => ?_
  dsimp only
  split
  · refine fueled_bind (Total.fueled (total_onBus ?_)) fun res => answered res _ _ _ _ _
    exact total_bind total_get fun _ => total_bind (total_modify _) fun _ => total_pure _
  · exact fueled_bind (total_pure _).fueled fun res => answered res _ _ _ _ _

theorem fueled_secondWord (plain : Bool) (addr : U32) :
    Fueled (env.build.secondWord plain addr : Exec U32) := by
  intro m
  unfold Build.secondWord Build.addU32
  split
  · split <;> simp
  · simp

theorem Op.fueled_exec (op : Op) : Fueled (op.exec env) := by
  cases op with
  | loadDouble plain rd addr next =>
    refine fueled_bind (total_loadWord env addr).fueled fun low => fueled_bind
      (fueled_secondWord plain addr) fun addr4 => ?_
    exact Total.fueled (total_bind (total_loadWord env addr4) fun _ =>
      total_bind (total_modifyCpu _) fun _ => total_pure _)
  | storeDouble plain bits addr next =>
    refine fueled_bind (total_storeWord addr _).fueled fun _ =>
      fueled_bind (fueled_secondWord plain addr) fun addr4 => ?_
    exact Total.fueled (total_bind (total_storeWord addr4 _) fun _ => total_pure _)
  | ecall next => exact fueled_bind fueled_handleEcall fun _ => (total_pure _).fueled
  | _ =>
    apply Total.fueled
    exact Op.total_exec trivial

/-- Every instruction comes to an end, on every build and with every host. -/
theorem Fetched.fueled_execute (inst : Fetched) : Fueled (inst.execute env) := by
  intro m
  rw [inst.execute_run]
  cases run : ((inst.op env m.cpu).exec env).run m with
  | exhausted => exact absurd run ((inst.op env m.cpu).fueled_exec m)
  | _ => simp

end Fuel

end RiscvRs
