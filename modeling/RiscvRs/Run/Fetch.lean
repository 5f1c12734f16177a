import RiscvRs.Run.Path
import RiscvRs.Memory.Devices

/-! The one-lookup fetch against the plain one: a `read_u16` to classify the instruction
and a `read_u32` to decode it. -/

namespace RiscvRs

open Effects Prog Bytes

/-- How many bytes an instruction has. -/
def Fetched.width : Fetched → Width
  | .half _ => .half
  | .word _ => .word

/-- The fetch that the window replaced. -/
def plainFetch (host : Host) (pc : U32) : Prog Bus Empty Fetched := do
  let inst16 ← Memory.readU16 host pc
  if inst16 &&& 0x3 ≠ 0x3 then
    return .half inst16
  else
    return .word (← Memory.readU32 host pc)

section Window

variable {ε : Type} (host : Host)

/-- The low half of four bytes is the first two. -/
theorem setWidth_fromLeBytes32 (b0 b1 b2 b3 : U8) :
    (fromLeBytes32 b0 b1 b2 b3).setWidth 16 = fromLeBytes16 b0 b1 := by
  apply BitVec.eq_of_toNat_eq
  have low := b0.isLt
  have high := b1.isLt
  rw [BitVec.toNat_setWidth, fromLeBytes32_eq, fromLeBytes16_eq, BitVec.toNat_ofNat,
    BitVec.toNat_ofNat]
  simp only [leNat]
  omega

theorem run_pageU32 (bus : Bus) (page : Page) {offset : Nat} (inside : offset + 3 < pageSize) :
    (Memory.pageU32 page offset : Prog Bus ε _).run bus =
      .ok (fromLeBytes32 (page ⟨offset, by omega⟩) (page ⟨offset + 1, by omega⟩)
        (page ⟨offset + 2, by omega⟩)
        (page ⟨offset + 3, inside⟩)) bus := by
  have first : offset < pageSize := by omega
  have second : offset + 1 < pageSize := by omega
  have third : offset + 2 < pageSize := by omega
  simp [Memory.pageU32, Table.get?_of_lt _ inside, Table.get?_of_lt _ first,
    Table.get?_of_lt _ second,
    Table.get?_of_lt _ third]

/-- The window holds the halfword that `read_u16` gives and, where it is wide, the word
that `read_u32` gives. The device accesses are the same too. -/
theorem fetchWindow_reads (bus : Bus) (pc : U32) :
    ∃ window wide bus', (Memory.fetchWindow host pc : Prog Bus ε _).run bus =
      .ok (window, wide) bus' ∧
      (Memory.readU16 host pc : Prog Bus ε _).run bus = .ok (window.setWidth 16) bus' ∧
      (wide = true → bus' = bus ∧
        (Memory.readU32 host pc : Prog Bus ε _).run bus = .ok window bus) := by
  by_cases inside : pc < mmioBase ∧ offsetOf pc + 3 < pageSize
  · have ram : ¬pc ≥ mmioBase := BitVec.not_le.mpr inside.1
    have fast16 : offsetOf pc + 1 < pageSize := by omega
    cases entry : bus.mem.pages ⟨idxOf pc, idxOf_lt pc⟩ with
    | none =>
      refine ⟨0, false, bus, ?_, ?_, by simp⟩
      · simp [Memory.fetchWindow, inside, getPage_apply, entry]
      · simp [Memory.readU16, ram, fast16, getPage_apply, entry]
    | some page =>
      have first : offsetOf pc < pageSize := by omega
      have third : offsetOf pc + 2 < pageSize := by omega
      refine ⟨fromLeBytes32 (page ⟨offsetOf pc, first⟩) (page ⟨offsetOf pc + 1, fast16⟩)
        (page ⟨offsetOf pc + 2, third⟩)
        (page ⟨offsetOf pc + 3, inside.2⟩), true, bus, ?_, ?_, fun _ => ⟨rfl, ?_⟩⟩
      · simp only [Memory.fetchWindow, if_pos inside, run_bind, getPage_apply, entry,
          Outcome.andThen_ok,
          run_pageU32 bus page inside.2, run_pure]
      · rw [setWidth_fromLeBytes32]
        simp [Memory.readU16, ram, fast16, getPage_apply, entry, Memory.pageU16,
          Table.get?_of_lt _ first,
          Table.get?_of_lt _ fast16]
      · simp only [Memory.readU32, if_neg ram, inside.2, or_true, if_true, run_bind,
          getPage_apply, entry,
          Outcome.andThen_ok, run_pageU32 bus page inside.2]
  · obtain ⟨half, bus', read⟩ : ∃ half : U16, ∃ bus', (Memory.readU16 host pc : Prog Bus ε _).run
      bus = .ok half bus' := by
      obtain ⟨half, events, read, -⟩ := readAt_events (ε := ε) host bus .half pc
      exact ⟨half, _, read⟩
    refine ⟨half.setWidth 32, false, bus', ?_, ?_, fun wide => absurd wide Bool.false_ne_true⟩
    · simp only [Memory.fetchWindow, if_neg inside, run_bind, read, Outcome.andThen_ok, run_pure]
    · rw [read, BitVec.setWidth_setWidth_of_le half (by decide), BitVec.setWidth_eq]

/-- Both fetches are the same program: the same instruction and the same device accesses. -/
theorem fetch_eq_plainFetch (pc : U32) : fetch host pc = plainFetch host pc := by
  ext bus
  obtain ⟨window, wide, bus', fetched, low, whole⟩ := fetchWindow_reads (ε := Empty) host bus pc
  simp only [fetch, plainFetch, run_bind, fetched, low, Outcome.andThen_ok]
  by_cases half : window.setWidth 16 &&& (0x3 : U16) ≠ 0x3
  · rw [if_pos half, if_pos half]
  · rw [if_neg half, if_neg half]
    cases wide with
    | true =>
      obtain ⟨rfl, read⟩ := whole rfl
      rw [if_pos rfl, run_bind, run_bind, run_pure, read]
    | false => rfl

theorem readU16_below (bus : Bus) {pc : U32} (below : pc.toNat + 2 ≤ 0xFFFF0000) :
    ∃ half : U16, (Memory.readU16 host pc : Prog Bus ε _).run bus = .ok half bus := by
  obtain ⟨half, read, -⟩ := readAt_below (ε := ε) host bus .half below
  exact ⟨half, read⟩

/-- Fetching an instruction that ends below the window touches no device. -/
theorem fetch_below {bus bus' : Bus} {pc : U32} {inst : Fetched}
    (run : (fetch host pc).run bus = .ok inst bus')
    (below : pc.toNat + inst.width.bytes ≤ 0xFFFF0000) : bus' = bus := by
  have two : 2 ≤ inst.width.bytes := by cases inst <;> simp [Fetched.width, Width.bytes]
  have half : pc.toNat + 2 ≤ 0xFFFF0000 := by omega
  obtain ⟨low, first⟩ := readU16_below (ε := Empty) host bus half
  rw [fetch_eq_plainFetch, plainFetch, run_bind, first, Outcome.andThen_ok] at run
  split at run
  · exact (Outcome.ok.inj run).2.symm
  · obtain ⟨word, bus₁, read, rest⟩ := bind_ok.mp run
    obtain ⟨rfl, rfl⟩ := Outcome.ok.inj rest
    have second := readU32_below (ε := Empty) host bus below
    exact (Outcome.ok.inj (read.symm.trans second)).2

end Window

section Dispatch

variable {env : Env}

/-- The block that `step_instruction` and `run_slice` share, with the plain fetch. -/
theorem fetchExecute_plain (pc : U32) : fetchExecute env pc = (do
    let inst ← onMachine (onBus (plainFetch env.host pc))
    let result ← onMachine (attempt (inst.execute env))
    return (inst, result)) := by
  rw [fetchExecute_eq, fetch_eq_plainFetch]

/-- What the plain fetch finds at `pc`. -/
def Tracked.PlainlyFetches (env : Env) (t : Tracked) (inst : Fetched) : Prop :=
  ∃ bus, (plainFetch env.host t.cpu.pc).run t.machine.bus = .ok inst bus

theorem plainlyFetches_of_run {t u : Tracked} {inst : Fetched} {result : Except CpuError Unit}
    (run : (fetchExecute env t.cpu.pc).run t = .ok (inst, result) u) :
    t.PlainlyFetches env inst := by
  rw [fetchExecute_plain] at run
  obtain ⟨inst', t₁, fetched, rest⟩ := bind_ok.mp run
  obtain ⟨result', t₂, ran, done⟩ := bind_ok.mp rest
  obtain ⟨same, -⟩ := Outcome.ok.inj done
  obtain ⟨rfl, -⟩ := Prod.mk.inj same
  obtain ⟨m, onBusRun, -⟩ := zoom_ok.mp fetched
  obtain ⟨bus, read, -⟩ := zoom_ok.mp onBusRun
  exact ⟨bus, read⟩

/-- A dispatch recorded on a path: some state of the path stood at that address, and there
the plain fetch finds the instruction. -/
def DispatchedOn (env : Env) (watch : Bool) (start : Cursor) : GuestEvent → Prop
  | .executed pc inst _ _ =>
    ∃ n c, SlicePath env watch start n c ∧ c.state.cpu.pc = pc ∧ c.state.PlainlyFetches env inst
  | _ => True

theorem SlicePath.dispatched {watch : Bool} {start c : Cursor} {n : Nat}
    (path : SlicePath env watch start n c) :
    (Frame.logs Tracked.history (DispatchedOn env watch start)).rel start.state c.state := by
  induction path with
  | start => exact (Frame.logs _ _).refl _
  | exec path step ih =>
    cases step with
    | mk live clear inst m run =>
      refine (Frame.logs _ _).trans ih ⟨[_], rfl, ?_⟩
      intro event member
      obtain rfl := List.mem_singleton.mp member
      exact ⟨_, _, path, rfl, plainlyFetches_of_run run⟩
  | irq path step ih =>
    cases step with
    | mk live enabled irq =>
      refine (Frame.logs _ _).trans ih ⟨[_], rfl, ?_⟩
      intro event member
      obtain rfl := List.mem_singleton.mp member
      trivial

theorem SliceStop.dispatched {watch : Bool} {start c : Cursor} {n : Nat} {status : SliceStatus}
    {t : Tracked}
    (path : SlicePath env watch start n c) (stop : SliceStop env watch c status t) :
    (Frame.logs Tracked.history (DispatchedOn env watch start)).rel c.state t := by
  cases stop with
  | running => exact (Frame.logs _ _).refl _
  | halted => exact (Frame.logs _ _).refl _
  | breakpoint => exact (Frame.logs Tracked.history _).refl c.state
  | trapped live clear inst err m messages run =>
    refine ⟨[_], rfl, ?_⟩
    intro event member
    obtain rfl := List.mem_singleton.mp member
    exact ⟨_, _, path, rfl, plainlyFetches_of_run run⟩

/-- A step dispatches at most one instruction: the one that the plain fetch finds. -/
theorem stepInstruction_dispatched {result : StepResult} {t t' : Tracked}
    (run : (stepInstruction env).run t = .ok result t') :
    t'.history = t.history ∨ ∃ inst next completed,
      t'.history = .executed t.cpu.pc inst next completed :: t.history ∧
        t.PlainlyFetches env inst := by
  cases stepInstruction_end run with
  | breakpointHit hit => exact .inl rfl
  | halted clear halted => exact .inl rfl
  | done clear live inst m fetched =>
    exact .inr ⟨inst, _, true, rfl, plainlyFetches_of_run (t := t.entry.state) fetched⟩
  | trap clear live inst err m messages fetched =>
    exact .inr ⟨inst, _, false, rfl, plainlyFetches_of_run (t := t.entry.state) fetched⟩

/-- The one-lookup fetch agrees with the plain fetch. -/
theorem window_fetch_is_plain_fetch (env : Env) (pc : U32) (bus : Bus) :
    (∃ window wide bus', (Memory.fetchWindow env.host pc : Prog Bus Empty _).run bus =
      .ok (window, wide) bus' ∧
      (Memory.readU16 env.host pc : Prog Bus Empty _).run bus = .ok (window.setWidth 16) bus' ∧
      (wide = true → (Memory.readU32 env.host pc : Prog Bus Empty _).run bus = .ok window bus')) ∧
    (fetchExecute env pc = do
      let inst ← onMachine (onBus (plainFetch env.host pc))
      let result ← onMachine (attempt (inst.execute env))
      return (inst, result)) ∧
    (∀ t t' result, (stepInstruction env).run t = .ok result t' →
      t'.history = t.history ∨ ∃ inst next completed,
        t'.history = .executed t.cpu.pc inst next completed :: t.history ∧
          t.PlainlyFetches env inst) ∧
    (∀ t t' poll budget out, (runSlice env poll budget).run t = .ok out t' →
      ∃ events, t'.history = events ++ t.history ∧ ∀ event ∈ events,
        DispatchedOn env t.cpu.watches t.entry event) ∧
    ∀ inst bus', (fetch env.host pc).run bus = .ok inst bus' →
      pc.toNat + inst.width.bytes ≤ 0xFFFF0000 →
      bus' = bus := by
  refine ⟨?_, fetchExecute_plain pc, fun t t' result => stepInstruction_dispatched, ?_,
    fun inst bus' => fetch_below env.host⟩
  · obtain ⟨window, wide, bus', fetched, low, whole⟩ :=
      fetchWindow_reads (ε := Empty) env.host bus pc
    refine ⟨window, wide, bus', fetched, low, fun flag => ?_⟩
    obtain ⟨rfl, read⟩ := whole flag
    exact read
  · intro t t' poll budget out run
    obtain ⟨c, path, stop, -⟩ := runSlice_path run
    exact (Frame.logs Tracked.history _).trans path.dispatched (stop.dispatched path)

/-- A compressed instruction in the last halfword below the window. -/
theorem window_fetch_is_plain_fetch_last_half :
    ∃ bus : Bus, (fetch default 0xFFFEFFFE).run bus = .ok (.half 0x0001) bus := by
  have run : (fetch default 0xFFFEFFFE).run
      { mem := Memory.new.store 0xFFFEFFFE 0x01, world := ⟨[], []⟩ } = .ok (.half 0x0001) _ := rfl
  have same := (window_fetch_is_plain_fetch default 0xFFFEFFFE
    { mem := Memory.new.store 0xFFFEFFFE 0x01, world := ⟨[], []⟩ }).2.2.2.2 _ _ run (by decide)
  exact ⟨_, run.trans (congrArg (Outcome.ok _) same)⟩

end Dispatch

end RiscvRs
