import RiscvRs.Exec.Compressed
import RiscvRs.Memory.Flat

/-! Double-precision stores and loads: which bit patterns survive a spill to
memory and a reload. -/

namespace RiscvRs

open Effects Prog Bytes

def Fetched.execute (env : Env) : Fetched → Exec Unit
  | half inst => executeInst16 env inst
  | word inst => executeInst32 env inst

/-- Address and source register of `FSD`, `C.FSD` and `C.FSDSP`. -/
def Fetched.doubleStore? (cpu : Cpu) : Fetched → Option (U32 × Fin 32)
  | word raw =>
    let inst := DecodedInst32.decode raw
    if Opcode.ofBits? inst.opcode = some .storeFp ∧ inst.funct3 = 3 then
      some (cpu.readReg inst.rs1 + inst.sImm, inst.rs2)
    else none
  | half inst =>
    let decoded := DecodedInst16.decode inst
    if decoded.op = 0 ∧ decoded.funct3 = 5 then
      some (cpu.readReg (creg inst 7) + clDoubleOffset inst, creg inst 2)
    else if decoded.op = 2 ∧ decoded.funct3 = 5 then
      some (cpu.readReg 2 + cssDoubleSpOffset inst, regField16 inst 2)
    else none

/-- Address and target register of `FLD`, `C.FLD` and `C.FLDSP`. -/
def Fetched.doubleLoad? (cpu : Cpu) : Fetched → Option (U32 × Fin 32)
  | word raw =>
    let inst := DecodedInst32.decode raw
    if Opcode.ofBits? inst.opcode = some .loadFp ∧ inst.funct3 = 3 then
      some (cpu.readReg inst.rs1 + inst.iImm, inst.rd)
    else none
  | half inst =>
    let decoded := DecodedInst16.decode inst
    if decoded.op = 0 ∧ decoded.funct3 = 1 then
      some (cpu.readReg (creg inst 7) + clDoubleOffset inst, creg inst 2)
    else if decoded.op = 2 ∧ decoded.funct3 = 1 then
      some (cpu.readReg 2 + ciDoubleSpOffset inst, regField16 inst 7)
    else none

section Access

variable {ε : Type} (host : Host)

/-- The 64-bit pattern spelled by eight bytes. -/
def Memory.pattern (m : Memory) (addr : U32) : U64 := BitVec.ofNat 64 (leNat (span m.flat addr 8))

theorem readU32_below (bus : Bus) {addr : U32} (below : addr.toNat + 4 ≤ 0xFFFF0000) :
    (Memory.readU32 host addr : Prog Bus ε _).run bus =
      .ok (BitVec.ofNat 32 (leNat (span bus.mem.flat addr 4))) bus := by
  obtain ⟨val, read, value⟩ := readAt_below (ε := ε) host bus .word below
  have same : val = BitVec.ofNat 32 (leNat (span bus.mem.flat addr 4)) := by
    apply BitVec.eq_of_toNat_eq
    exact value.trans (toNat_ofNat_leNat .word (length_span _ _ _)).symm
  rw [← same]
  exact read

theorem writeU32_below (bus : Bus) {addr : U32} (below : addr.toNat + 4 ≤ 0xFFFF0000) (val : U32) :
    ∃ m : Memory, (Memory.writeU32 addr val : Prog Bus ε _).run bus = .ok () { bus with mem := m } ∧
      m.flat = overlay bus.mem.flat addr 4 val := by
  obtain ⟨m, written, flat, -⟩ := writeAt_below (ε := ε) bus .word below val
  exact ⟨m, written, flat⟩

theorem join_words (low high : U32) :
    ((high.setWidth 64 <<< 32) ||| low.setWidth 64 : U64).toNat = low.toNat +
      2 ^ 32 * high.toNat := by
  have lowBound := low.isLt
  have highBound := high.isLt
  have shifted : (high.setWidth 64 <<< 32 : U64).toNat = high.toNat <<< 32 := by
    rw [BitVec.toNat_shiftLeft, BitVec.toNat_setWidth, Nat.shiftLeft_eq, Nat.shiftLeft_eq]
    omega
  have kept : (low.setWidth 64 : U64).toNat = low.toNat := by
    rw [BitVec.toNat_setWidth]
    omega
  rw [BitVec.toNat_or, shifted, kept, ← Nat.shiftLeft_add_eq_or_of_lt lowBound, Nat.shiftLeft_eq]
  omega

/-- Two word reads join to the pattern of the eight bytes. -/
theorem join_pattern (m : Memory) (addr : U32) :
    (((BitVec.ofNat 32 (leNat (span m.flat (addr + 4) 4))).setWidth 64 <<< 32) |||
      (BitVec.ofNat 32 (leNat (span m.flat addr 4))).setWidth 64 : U64) = m.pattern addr := by
  have lowBound := leNat_lt (span m.flat addr 4)
  have highBound := leNat_lt (span m.flat (addr + 4) 4)
  have split : span m.flat addr 8 = span m.flat addr 4 ++ span m.flat (addr + 4) 4 :=
    span_add m.flat addr 4 4
  rw [length_span] at lowBound highBound
  apply BitVec.eq_of_toNat_eq
  rw [join_words, Memory.pattern, split, leNat_append, length_span]
  simp only [BitVec.toNat_ofNat]
  omega

/-- The two word writes of a double store. -/
theorem storeDouble_below (bus : Bus) {addr : U32} (below : addr.toNat + 8 ≤ 0xFFFF0000) (bits : U64) :
    ∃ m : Memory, (do
        Memory.writeU32 addr (bits.setWidth 32)
        Memory.writeU32 (addr + 4) ((bits >>> 32).setWidth 32) : Prog Bus ε Unit).run bus =
          .ok () { bus with mem := m } ∧
      m.flat = overlay bus.mem.flat addr 8 bits := by
  have next : (addr + 4).toNat = addr.toNat + 4 := toNat_add_of_lt addr 4 (by omega)
  obtain ⟨m, first, flat⟩ :=
    writeU32_below (ε := ε) bus (show addr.toNat + 4 ≤ _ by omega) (bits.setWidth 32)
  obtain ⟨m', second, flat'⟩ := writeU32_below (ε := ε) { bus with mem := m }
    (show (addr + 4).toNat + 4 ≤ _ by omega) ((bits >>> 32).setWidth 32)
  refine ⟨m', by rw [run_bind, first, Outcome.andThen_ok, second], ?_⟩
  rw [flat', flat]
  refine overlay_overlay bus.mem.flat addr _ _ bits (by decide) (by decide) ?_ ?_
  · intro i inside
    apply BitVec.eq_of_toNat_eq
    rw [toNat_leByte, toNat_leByte, BitVec.toNat_setWidth]
    interval_cases i <;> omega
  · intro i inside
    apply BitVec.eq_of_toNat_eq
    rw [toNat_leByte, toNat_leByte, BitVec.toNat_setWidth, BitVec.toNat_ushiftRight,
      Nat.shiftRight_eq_div_pow]
    interval_cases i <;> omega

end Access

section Execute

variable {env : Env}

/-- Plain `+` on addresses that either wraps or does not overflow. -/
def Modular (env : Env) (addr : U32) : Prop :=
  env.build.overflowChecks = false ∨ addr.toNat + 4 < 2 ^ 32

theorem addU32_modular {addr : U32} (modular : Modular env addr) :
    (env.build.addU32 addr 4 : Exec U32) = pure (addr + 4) := by
  rw [Build.addU32, if_neg]
  rintro ⟨checked, exceeds⟩
  rcases modular with unchecked | room
  · rw [unchecked] at checked
    cases checked
  · change 2 ^ 32 ≤ addr.toNat + 4 at exceeds
    omega

/-- `FLD` is the load that the compressed loads share. -/
theorem execLoadFp_double {inst : DecodedInst32} {m : Machine} (minor : inst.funct3 = 3)
    (modular : Modular env (m.cpu.readReg inst.rs1 + inst.iImm)) :
    (execLoadFp env inst).run m =
      (loadDouble env inst.rd (m.cpu.readReg inst.rs1 + inst.iImm)).run m := by
  rw [execLoadFp, run_bind, run_getCpu, Outcome.andThen_ok]
  dsimp only
  rw [if_neg (by rw [minor]; decide), if_pos minor, addU32_modular modular]
  simp only [pure_bind, loadDouble]

/-- `FSD` is the store that the compressed stores share. -/
theorem execStoreFp_double {inst : DecodedInst32} {m : Machine} (minor : inst.funct3 = 3)
    (modular : Modular env (m.cpu.readReg inst.rs1 + inst.sImm)) :
    (execStoreFp env inst).run m =
      (storeDouble (m.cpu.fregs inst.rs2) (m.cpu.readReg inst.rs1 + inst.sImm)).run m := by
  rw [execStoreFp, run_bind, run_getCpu, Outcome.andThen_ok]
  dsimp only
  rw [if_neg (by rw [minor]; decide), if_pos minor, addU32_modular modular]
  simp only [pure_bind, storeDouble, Cpu.readF64]

/-- A double store below the window writes the register's bits and nothing else. -/
theorem execute_doubleStore {inst : Fetched} {m : Machine} {addr : U32} {r : Fin 32}
    (decoded : inst.doubleStore? m.cpu = some (addr, r)) (below : addr.toNat + 8 ≤ 0xFFFF0000) :
    ∃ (mem : Memory) (next : U32),
      (inst.execute env).run m = .ok () ⟨{ m.cpu with pc := next }, { m.bus with mem := mem }⟩ ∧
      mem.flat = overlay m.bus.mem.flat addr 8 (m.cpu.fregs r) := by
  obtain ⟨mem, stored, flat⟩ := storeDouble_below (ε := CpuError) m.bus below (m.cpu.fregs r)
  have room : addr.toNat + 4 < 2 ^ 32 := by omega
  have written : (storeDouble (m.cpu.fregs r) addr).run m = .ok ()
    { m with bus := { m.bus with mem := mem } } := by
    rw [storeDouble, onBus_bind]
    exact run_onBus stored
  cases inst with
  | word raw =>
    simp only [Fetched.doubleStore?] at decoded
    split at decoded
    · next fields =>
      obtain ⟨rfl, rfl⟩ := by simpa using decoded
      have store : (execStoreFp env (DecodedInst32.decode raw)).run m = _ :=
        (execStoreFp_double fields.2 (.inr room)).trans written
      refine ⟨mem, m.cpu.pc + 4, ?_, flat⟩
      rw [Fetched.execute, executeInst32_run]
      simp only [executeInst32.dispatch, fields.1, execRv32fd, run_bind, store,
        Outcome.andThen_ok, run_pure]
    · cases decoded
  | half c =>
    simp only [Fetched.doubleStore?] at decoded
    split at decoded
    · next fields =>
      obtain ⟨rfl, rfl⟩ := by simpa using decoded
      refine ⟨mem, m.cpu.pc + 2, ?_, flat⟩
      have store (next : U32) : (execQuadrant env c 0 5 next).run m =
          ((storeDouble (m.cpu.fregs (creg c 2)) (m.cpu.readReg (creg c 7) + clDoubleOffset c)).run
            m).andThen
            fun _ m' => .ok next m' := rfl
      rw [Fetched.execute, executeInst16_run, fields.1, fields.2, store, written]
      rfl
    · split at decoded
      · next fields =>
        obtain ⟨rfl, rfl⟩ := by simpa using decoded
        refine ⟨mem, m.cpu.pc + 2, ?_, flat⟩
        have store (next : U32) : (execQuadrant env c 2 5 next).run m =
            ((storeDouble (m.cpu.fregs (regField16 c 2))
              (m.cpu.readReg 2 + cssDoubleSpOffset c)).run m).andThen
              fun _ m' => .ok next m' := rfl
        rw [Fetched.execute, executeInst16_run, fields.1, fields.2, store, written]
        rfl
      · cases decoded

/-- A double load below the window goes through `write_f64`. -/
theorem execute_doubleLoad {inst : Fetched} {m : Machine} {addr : U32} {r : Fin 32}
    (decoded : inst.doubleLoad? m.cpu = some (addr, r)) (below : addr.toNat + 8 ≤ 0xFFFF0000) :
    ∃ next : U32, (inst.execute env).run m =
      .ok () ⟨{ m.cpu.writeF64 r (m.bus.mem.pattern addr) with pc := next }, m.bus⟩ := by
  have next : (addr + 4).toNat = addr.toNat + 4 := toNat_add_of_lt addr 4 (by omega)
  have room : addr.toNat + 4 < 2 ^ 32 := by omega
  have low := run_onBus
    (readU32_below (ε := CpuError) env.host m.bus (show addr.toNat + 4 ≤ _ by omega))
  have high := run_onBus
    (readU32_below (ε := CpuError) env.host m.bus (show (addr + 4).toNat + 4 ≤ _ by omega))
  have loaded : (loadDouble env r addr).run m =
      .ok () { m with cpu := m.cpu.writeF64 r (m.bus.mem.pattern addr) } := by
    simp only [loadDouble, run_bind, low, high, Outcome.andThen_ok, run_modifyCpu, join_pattern]
  cases inst with
  | word raw =>
    simp only [Fetched.doubleLoad?] at decoded
    split at decoded
    · next fields =>
      obtain ⟨rfl, rfl⟩ := by simpa using decoded
      have load : (execLoadFp env (DecodedInst32.decode raw)).run m = _ :=
        (execLoadFp_double fields.2 (.inr room)).trans loaded
      refine ⟨m.cpu.pc + 4, ?_⟩
      rw [Fetched.execute, executeInst32_run]
      simp only [executeInst32.dispatch, fields.1, execRv32fd, run_bind, load,
        Outcome.andThen_ok, run_pure]
    · cases decoded
  | half c =>
    simp only [Fetched.doubleLoad?] at decoded
    split at decoded
    · next fields =>
      obtain ⟨rfl, rfl⟩ := by simpa using decoded
      have load (next : U32) : (execQuadrant env c 0 1 next).run m =
          ((loadDouble env (creg c 2) (m.cpu.readReg (creg c 7) + clDoubleOffset c)).run m).andThen
            fun _ m' => .ok next m' := rfl
      refine ⟨m.cpu.pc + 2, ?_⟩
      rw [Fetched.execute, executeInst16_run, fields.1, fields.2, load, loaded]
      rfl
    · split at decoded
      · next fields =>
        obtain ⟨rfl, rfl⟩ := by simpa using decoded
        have load (next : U32) : (execQuadrant env c 2 1 next).run m =
            ((loadDouble env (regField16 c 7) (m.cpu.readReg 2 + ciDoubleSpOffset c)).run m).andThen
              fun _ m' => .ok next m' := rfl
        refine ⟨m.cpu.pc + 2, ?_⟩
        rw [Fetched.execute, executeInst16_run, fields.1, fields.2, load, loaded]
        rfl
      · cases decoded

end Execute

/-- The quiet NaN that `write_f64` puts in place of every other. -/
def canonicalNan : U64 := 0x7FF8000000000000

/-- The patterns that `write_f64` leaves alone. -/
def Storable (bits : U64) : Prop := Ieee.double.isNan bits.toNat = false ∨ bits = canonicalNan

theorem writeF64_eq_iff (cpu : Cpu) (r : Fin 32) (bits : U64) :
    (cpu.writeF64 r bits).fregs r = bits ↔ Storable bits := by
  have value : (cpu.writeF64 r bits).fregs r =
    if Ieee.double.isNan bits.toNat then canonicalNan else bits := by
    simp [Cpu.writeF64, Cpu.setFreg, canonicalNan]
  rw [value]
  cases nan : Ieee.double.isNan bits.toNat with
  | false => simp [Storable, nan]
  | true =>
    simp only [Storable, nan, ↓reduceIte, reduceCtorEq, false_or]
    exact eq_comm

/-- What an overlay of eight bytes spells. -/
theorem pattern_of_overlay {mem : Memory} {ram : U32 → U8} {addr : U32} {bits : U64}
    (flat : mem.flat = overlay ram addr 8 bits) : mem.pattern addr = bits := by
  rw [Memory.pattern, flat, span_overlay _ _ _ _ (by decide), leNat_leBytes]
  apply BitVec.eq_of_toNat_eq
  have bound := bits.isLt
  rw [BitVec.toNat_ofNat]
  omega

theorem span_eq_iff_pattern (m m' : Memory) (a a' : U32) :
    span m.flat a 8 = span m'.flat a' 8 ↔ m.pattern a = m'.pattern a' := by
  have bound := leNat_lt (span m.flat a 8)
  have bound' := leNat_lt (span m'.flat a' 8)
  rw [length_span] at bound bound'
  constructor
  · intro same
    rw [Memory.pattern, Memory.pattern, same]
  · intro same
    refine leNat_inj (by rw [length_span, length_span]) ?_
    have values := congrArg BitVec.toNat same
    simp only [Memory.pattern, BitVec.toNat_ofNat] at values
    omega

/-- A spill and reload, and a copy through a register, are exact for the patterns
that are no NaN or the canonical one, and for no others. -/
theorem spill_reload_exact_iff (env : Env) :
    (∀ (m : Machine) (store : Fetched) (addr : U32) (r : Fin 32),
      store.doubleStore? m.cpu = some (addr, r) → addr.toNat + 8 ≤ 0xFFFF0000 →
      ∃ stored, (store.execute env).run m = .ok () stored ∧
        ∀ (m' : Machine) (load : Fetched) (r' : Fin 32), m'.bus.mem = stored.bus.mem →
          load.doubleLoad? m'.cpu = some (addr, r') →
          ∃ loaded, (load.execute env).run m' = .ok () loaded ∧
            (loaded.cpu.fregs r' = m.cpu.fregs r ↔ Storable (m.cpu.fregs r))) ∧
    (∀ (m : Machine) (load : Fetched) (src : U32) (r : Fin 32),
      load.doubleLoad? m.cpu = some (src, r) → src.toNat + 8 ≤ 0xFFFF0000 →
      ∃ loaded, (load.execute env).run m = .ok () loaded ∧
        ∀ (m' : Machine) (store : Fetched) (dst : U32), m'.bus.mem = loaded.bus.mem →
          m'.cpu.fregs r = loaded.cpu.fregs r → store.doubleStore? m'.cpu = some (dst, r) →
          dst.toNat + 8 ≤ 0xFFFF0000 →
          ∃ stored, (store.execute env).run m' = .ok () stored ∧
            (span stored.bus.mem.flat dst 8 = span m.bus.mem.flat src 8 ↔
              Storable (m.bus.mem.pattern src))) := by
  constructor
  · intro m store addr r decoded below
    obtain ⟨mem, next, run, flat⟩ := execute_doubleStore decoded below
    refine ⟨_, run, ?_⟩
    intro m' load r' same decoded'
    obtain ⟨next', run'⟩ := execute_doubleLoad decoded' below
    have kept : m'.bus.mem.pattern addr = m.cpu.fregs r := by
      rw [same]
      exact pattern_of_overlay flat
    refine ⟨_, run', ?_⟩
    rw [kept]
    exact writeF64_eq_iff m'.cpu r' (m.cpu.fregs r)
  · intro m load src r decoded below
    obtain ⟨next, run⟩ := execute_doubleLoad decoded below
    refine ⟨_, run, ?_⟩
    intro m' store dst _ same decoded' below'
    obtain ⟨mem, next', run', flat⟩ := execute_doubleStore decoded' below'
    have written : mem.pattern dst = (m.cpu.writeF64 r (m.bus.mem.pattern src)).fregs r :=
      (pattern_of_overlay flat).trans same
    refine ⟨_, run', ?_⟩
    rw [span_eq_iff_pattern, written]
    exact writeF64_eq_iff m.cpu r (m.bus.mem.pattern src)

/-- A machine that holds `bits` in `f8`. -/
def Machine.holding (bits : U64) : Machine := { Machine.new with cpu := Cpu.new.setFreg 8 bits }

/-- `fsd f8, 0(x0)` and `fld f9, 0(x0)` on the double 1.0. -/
theorem spill_reload_exact_iff_one :
    ∃ stored loaded,
      ((Fetched.word 0x00803027).execute default).run (.holding 0x3FF0000000000000) = .ok () stored ∧
      ((Fetched.word 0x00003487).execute default).run { Machine.new with bus := stored.bus } =
        .ok () loaded ∧
      loaded.cpu.fregs 9 = 0x3FF0000000000000 := by
  obtain ⟨stored, run, reload⟩ :=
    (spill_reload_exact_iff default).1 (.holding 0x3FF0000000000000)
    (.word 0x00803027) 0 8 rfl (by decide)
  obtain ⟨loaded, run', exact⟩ :=
    reload { Machine.new with bus := stored.bus } (.word 0x00003487) 9 rfl rfl
  exact ⟨stored, loaded, run, run', exact.mpr (.inl rfl)⟩

/-- The boxed single 1.0 comes back as the canonical NaN. -/
theorem spill_reload_loses_boxed :
    ∃ stored loaded,
      ((Fetched.word 0x00803027).execute default).run (.holding 0xFFFFFFFF3F800000) = .ok () stored ∧
      ((Fetched.word 0x00003487).execute default).run stored = .ok () loaded ∧
      loaded.cpu.fregs 9 = 0x7FF8000000000000 ∧
      loaded.cpu.fregs 9 ≠ (Machine.holding 0xFFFFFFFF3F800000).cpu.fregs 8 := by
  refine ⟨_, _, rfl, rfl, rfl, ?_⟩
  decide

end RiscvRs
