import WasmBridge.Proofs.Memory.Steps

/-!
# Buffers are isolated

A write is let through if its bytes lie within some live block, no matter whose. So
nothing checks that nobody writes into the buffer of somebody else; it follows from the
tiling. A nonempty write goes to the one block that its pointer leads into, a request
hands out a block that is nobody's, and neither makes the memory shorter or moves a
byte.

`buffers_isolated` says it for whole runs. What was written to a block is read back,
as a whole and in parts, until the block is given back or somebody writes into it,
whatever is requested, given back, grown and written meanwhile, the records of
asynchronous calls included.
-/

namespace WasmBridge

open LinearMemory FatPtr

namespace LinearMemory

variable {m : LinearMemory} {b : Block}

/-! ## Where blocks go -/

theorem Tiled.not_freed (h : Tiled m) (hb : b ∈ m.live) : b ∉ m.freed :=
  fun hfreed => (List.nodup_append.mp h.nodup).2.2 b hb b hfreed rfl

/--
What a call does to the lists of blocks: nothing, or it is a request that makes one
block live, which was freed or is new, or it gives one live block back.
-/
theorem lists_cases (h : Tiled m) (call : Call) {m' : LinearMemory} (hm' : call.after m = m') :
    (m'.live = m.live ∧ m'.freed = m.freed)
      ∨ (∃ length c, call = .malloc length ∧ m'.live = c :: m.live ∧ (m'.freed = m.freed
        ∨ ∃ before after, m.freed = before ++ c :: after ∧ m'.freed = before ++ after))
      ∨ ∃ fat c, call = .free fat ∧ c ∈ m.live
        ∧ m'.live = m.live.filter (fun d => d.start ≠ c.start) ∧ m'.freed = m.freed ++ [c] := by
  subst hm'
  cases call with
  | malloc length =>
    rcases malloc_cases h.align_pos length with
      ⟨before, c, after, hfreed, _, _, hr⟩ | ⟨_, ⟨_, hr⟩ | ⟨e, hr⟩⟩
    · rw [Call.after, stateAfter_orFail hr, setLive_eq (m := { m with freed := before ++ after })
        (h.taken_fresh hfreed)]
      exact .inr (.inl ⟨length, c, rfl, rfl, .inr ⟨before, after, hfreed, rfl⟩⟩)
    · rw [Call.after, stateAfter_orFail hr, setLive_eq h.next_fresh]
      exact .inr (.inl ⟨length, _, rfl, rfl, .inl rfl⟩)
    · rw [Call.after, stateAfter_error hr]
      exact .inl ⟨rfl, rfl⟩
  | free fat =>
    rcases free_cases fat m with ⟨pointer, _, c, _, hc, hr⟩ | ⟨e, hr⟩
    · obtain ⟨hlive, rfl⟩ := h.blockAt?_eq_some.mp hc
      rw [Call.after, stateAfter_ok hr]
      exact .inr (.inr ⟨fat, c, rfl, hlive, rfl, rfl⟩)
    · rw [Call.after, stateAfter_error hr]
      exact .inl ⟨rfl, rfl⟩
  | read _ | readWord _ => exact .inl ⟨rfl, rfl⟩
  | write fat payload =>
    rcases write_cases fat payload m with ⟨_, _, _, _, _, hr⟩ | ⟨e, hr⟩
    · rw [Call.after, stateAfter_ok hr]
      exact .inl ⟨rfl, rfl⟩
    · rw [Call.after, stateAfter_error hr]
      exact .inl ⟨rfl, rfl⟩
  | grow extra =>
    rcases grow_cases extra m with ⟨_, hr⟩ | ⟨e, hr⟩
    · rw [Call.after, stateAfter_ok hr]
      exact .inl ⟨rfl, rfl⟩
    · rw [Call.after, stateAfter_error hr]
      exact .inl ⟨rfl, rfl⟩
  | writeWord offset value =>
    rcases writeWord_cases offset value m with hr | ⟨_, _, _, _, hr⟩
    · rw [Call.after, hr]
      exact .inl ⟨rfl, rfl⟩
    · rw [Call.after, hr]
      exact .inl ⟨rfl, rfl⟩

/-- A live block stays live or is given back. -/
theorem live_after (h : Tiled m) (hb : b ∈ m.live) (call : Call) :
    b ∈ (call.after m).live ∨ b ∈ (call.after m).freed := by
  rcases lists_cases h call rfl with
    ⟨hlive, -⟩ | ⟨_, c, -, hlive, -⟩ | ⟨_, c, -, hc, hlive, hfreed⟩
  · exact .inl (by rw [hlive]; exact hb)
  · exact .inl (by rw [hlive]; exact List.mem_cons_of_mem _ hb)
  · by_cases hsame : b.start = c.start
    · have heq := h.eq_of_start (mem_blocks.mpr (.inl hb)) (mem_blocks.mpr (.inl hc)) hsame
      exact .inr (by rw [hfreed, heq]; exact List.mem_append_right _ List.mem_cons_self)
    · exact .inl (by rw [hlive]; exact List.mem_filter.mpr ⟨hb, by simpa using hsame⟩)

/-- A freed block stays freed until a request takes it. -/
theorem freed_after (h : Tiled m) (hb : b ∈ m.freed) (call : Call) :
    b ∈ (call.after m).freed
      ∨ (∃ length, call = .malloc length) ∧ b ∈ (call.after m).live := by
  rcases lists_cases h call rfl with
    ⟨-, hfreed⟩ | ⟨length, c, rfl, hlive, hfreed | ⟨before, after, hbefore, hfreed⟩⟩
      | ⟨_, c, -, -, -, hfreed⟩
  · exact .inl (by rw [hfreed]; exact hb)
  · exact .inl (by rw [hfreed]; exact hb)
  · rw [hbefore] at hb
    rcases List.mem_append.mp hb with hb | hb
    · exact .inl (by rw [hfreed]; exact List.mem_append_left _ hb)
    · rcases List.mem_cons.mp hb with rfl | hb
      · exact .inr ⟨⟨length, rfl⟩, by rw [hlive]; exact List.mem_cons_self⟩
      · exact .inl (by rw [hfreed]; exact List.mem_append_right _ hb)
  · exact .inl (by rw [hfreed]; exact List.mem_append_left _ hb)

/-- Bytes that are written through a pointer into a live block end within it. -/
theorem Tiled.of_write (h : Tiled m) {fat pointer length : Int} {payload : List UInt8}
    {written : LinearMemory} (hwrite : write fat payload m = .ok () written)
    (hfat : Packs fat pointer length) (hb : b ∈ m.live) (hin : b.Holds pointer) :
    pointer + payload.length ≤ b.start + b.size ∧ written = m.setBytes pointer payload := by
  rcases write_cases fat payload m with ⟨p, l, hpacks, _, ⟨c, hc, hroom⟩, hr⟩ | ⟨e, hr⟩
  · obtain ⟨rfl, rfl⟩ := hfat.unique hpacks
    rw [h.overwrite_eq hc hroom, hwrite, EStateM.Result.ok.injEq] at hr
    exact ⟨h.end_within hb hin (Int.natCast_nonneg _) ⟨c, hc, hroom⟩, hr.2⟩
  · rw [hwrite] at hr
    cases hr

/-! ## Calls that leave a block alone -/

/-- None of the calls gives the block back or writes into it. -/
def LeftAlone (b : Block) (m : LinearMemory) : List Call → Prop
  | [] => True
  | call :: calls => call.Avoids b m ∧ b ∉ (call.after m).freed ∧ LeftAlone b (call.after m) calls

instance decidableLeftAlone (b : Block) :
    (m : LinearMemory) → (calls : List Call) → Decidable (LeftAlone b m calls)
  | _, [] => .isTrue trivial
  | m, call :: calls =>
    have := decidableLeftAlone b (call.after m) calls
    inferInstanceAs (Decidable (_ ∧ _ ∧ LeftAlone b (call.after m) calls))

/-- **A live block that is left alone stays live and keeps its bytes.** -/
theorem LeftAlone.kept (h : Tiled m) (hb : b ∈ m.live) {calls : List Call}
    (hleft : LeftAlone b m calls) :
    b ∈ (m.run calls).live ∧ ∀ a, b.Holds a → (m.run calls).byteAt a = m.byteAt a := by
  induction calls generalizing m with
  | nil => exact ⟨hb, fun _ _ => rfl⟩
  | cons call calls ih =>
    obtain ⟨havoids, hkept, hrest⟩ := hleft
    have hlive := (live_after h hb call).resolve_right hkept
    obtain ⟨hend, hbytes⟩ := ih (follows_after h call).tiled hlive hrest
    exact ⟨hend, fun a ha =>
      (hbytes a ha).trans (byteAt_avoided h (mem_blocks.mpr (.inl hb)) havoids ha)⟩

theorem leftAlone_append {calls later : List Call} :
    LeftAlone b m (calls ++ later) ↔ LeftAlone b m calls ∧ LeftAlone b (m.run calls) later := by
  induction calls generalizing m with
  | nil => exact (iff_of_eq (true_and _)).symm
  | cons call calls ih =>
    have hrest := ih (m := call.after m)
    simp only [List.cons_append, LeftAlone, hrest, run, List.foldl_cons, and_assoc]

/-- Giving back other blocks leaves a block alone. -/
theorem leftAlone_frees {fats : List Int} (hkept : b ∉ (m.run (fats.map Call.free)).freed) :
    LeftAlone b m (fats.map Call.free) := by
  induction fats generalizing m with
  | nil => trivial
  | cons fat fats ih =>
    -- once it is among the freed blocks it would be so to the end
    have hlast : ∀ (fats : List Int) (m : LinearMemory), b ∈ m.freed →
        b ∈ (m.run (fats.map Call.free)).freed := by
      intro fats
      induction fats with
      | nil => exact fun _ hb => hb
      | cons fat fats ih => exact fun m hb => ih _ (rests_frees hb [fat]).2.2
    exact ⟨trivial, fun hb => hkept (hlast fats _ hb), ih hkept⟩

/-- Words that are written beside a block leave it alone. -/
theorem leftAlone_words (hb : b ∉ m.freed) {calls : List Call}
    (hcalls : ∀ call ∈ calls, ∃ offset value, call = .writeWord offset value ∧ 0 ≤ offset
      ∧ Block.Apart ⟨offset, 4⟩ b) : LeftAlone b m calls := by
  induction calls generalizing m with
  | nil => trivial
  | cons call calls ih =>
    obtain ⟨offset, value, rfl, h0, hapart⟩ := hcalls call List.mem_cons_self
    have hkept : b ∉ ((Call.writeWord offset value).after m).freed := by
      rcases writeWord_cases offset value m with hr | ⟨_, _, _, _, hr⟩
      · rw [Call.after, hr]; exact hb
      · rw [Call.after, hr]; exact hb
    refine ⟨fun start hstart => ?_, hkept,
      ih hkept fun c hc => hcalls c (List.mem_cons_of_mem _ hc)⟩
    rw [wordStart_of_nonneg h0 hstart]
    exact hapart

/-- A part of some bytes. -/
theorem bytesFrom_part (m : LinearMemory) (start : Int) {count i k : Nat} (h : i + k ≤ count) :
    m.bytesFrom (start + i) k = ((m.bytesFrom start count).drop i).take k := by
  refine List.ext_getElem ?_ fun j h1 h2 => ?_
  · simp only [length_bytesFrom, List.length_take, List.length_drop]
    omega
  · have hplace : start + (i : Int) + (j : Int) = start + ((i + j : Nat) : Int) := by omega
    simp only [bytesFrom, List.getElem_map, List.getElem_range, List.getElem_take,
      List.getElem_drop, hplace]

end LinearMemory

/-! ## Steps that leave a block alone -/

namespace AsyncCalls

variable {κ : Type} {s : AsyncCalls κ} {b : Block}

/-- The step writes nothing into the block: no bytes through a pointer into it, no word over it,
and no result into a record that reaches into it. -/
def Step.Avoids (b : Block) (s : AsyncCalls κ) : Step κ → Prop
  | .memory call => call.Avoids b s.memory
  | step => step.Spares b s

instance (b : Block) (s : AsyncCalls κ) : (step : Step κ) → Decidable (step.Avoids b s)
  | .memory call => inferInstanceAs (Decidable (call.Avoids b s.memory))
  | .assign id fat => inferInstanceAs (Decidable ((Step.assign id fat : Step κ).Spares b s))
  | .create | .attach _ | .result _ | .consume _ | .register _ _ | .resolve _ => .isTrue trivial

/-- None of the steps gives the block back or writes into it. -/
def LeftAlone (b : Block) (s : AsyncCalls κ) : List (Step κ) → Prop
  | [] => True
  | step :: steps =>
    step.Avoids b s ∧ b ∉ (step.after s).memory.freed ∧ LeftAlone b (step.after s) steps

instance decidableLeftAlone (b : Block) :
    (s : AsyncCalls κ) → (steps : List (Step κ)) → Decidable (LeftAlone b s steps)
  | _, [] => .isTrue trivial
  | s, step :: steps =>
    have := decidableLeftAlone b (step.after s) steps
    inferInstanceAs (Decidable (_ ∧ _ ∧ LeftAlone b (step.after s) steps))

/-- What a step that leaves a block alone does to the memory are calls that do so. -/
def Step.Passes (step : Step κ) (b : Block) (s : AsyncCalls κ) : Prop :=
  ∃ calls, (step.after s).memory = s.memory.run calls ∧ s.memory.LeftAlone b calls

theorem passes_nothing {step : Step κ} (h : (step.after s).memory = s.memory) :
    step.Passes b s :=
  ⟨[], h, trivial⟩

theorem passes_frees {step : Step κ} {h : Handle}
    (hafter : (step.after s).memory = stateAfter h.consume s.memory)
    (hkept : b ∉ (step.after s).memory.freed) : step.Passes b s := by
  obtain ⟨fats, hfats⟩ := h.consume_after s.memory
  rw [hafter, hfats] at hkept
  exact ⟨fats.map .free, hafter.trans hfats, leftAlone_frees hkept⟩

theorem passes_create (ht : Tiled s.memory) (hb : b ∈ s.memory.live)
    (hmemory : (Step.create.after s).memory = stateAfter Handle.create s.memory)
    (hkept : b ∉ (Step.create.after s).memory.freed) : Step.create.Passes b s := by
  rcases Handle.create_after s.memory with hrun | ⟨fat, m, hmalloc, hrun⟩
  · refine ⟨_, hmemory.trans hrun, trivial, ?_, trivial⟩
    rw [hmemory, hrun] at hkept
    exact hkept
  · obtain ⟨c, hg⟩ := granted_of_malloc ht hmalloc
    have hafter : (Call.malloc recordSize).after s.memory = m := stateAfter_ok hmalloc
    have hblive : b ∈ m.live := by rw [hg.live]; exact List.mem_cons_of_mem _ hb
    -- the zeros are written to the block that was requested, which is a new one
    have hnew : ¬ b.Holds (fat / halfSize) := by
      have hapart := hg.follows.tiled.live_apart hg.buffer.mem hblive (hg.fresh b hb).symm
      have hpos := hg.follows.tiled.multiple c (mem_blocks.mpr (.inl hg.buffer.mem))
      rw [hg.packs.pointer_eq]
      exact hapart.not_both (by unfold Block.Holds; omega)
    rw [hmemory, hrun] at hkept
    refine ⟨_, hmemory.trans hrun, trivial, ?_, fun _ _ => hnew, hkept, trivial⟩
    rw [hafter]
    exact hg.follows.tiled.not_freed hblive

theorem passes_assign {id : Nat} {fat : Int} (hb : b ∉ s.memory.freed)
    (hmemory : ((Step.assign id fat).after s).memory
      = stateAfter ((s.handle id).assign fat) s.memory)
    (havoids : (Step.assign id fat).Avoids b s) : (Step.assign id fat).Passes b s := by
  rcases Handle.assign_after (s.handle id) fat s.memory with
    hsame | ⟨start, pointer, length, n, hstart, hrun⟩
  · exact passes_nothing (hmemory.trans hsame)
  · refine ⟨_, hmemory.trans hrun, leftAlone_words hb fun call hcall => ?_⟩
    exact Handle.words_apart (Handle.offset_nonneg hstart) (havoids start hstart)
      (List.mem_of_mem_take hcall)

/-- A step that neither gives a block back nor writes into it is made of calls that do not. -/
theorem passes (ht : Tiled s.memory) (hb : b ∈ s.memory.live) {step : Step κ}
    (havoids : step.Avoids b s) (hkept : b ∉ (step.after s).memory.freed) : step.Passes b s := by
  rcases memory_cases step s with
    hsame | ⟨call, rfl⟩ | ⟨rfl, hcreate⟩ | ⟨id, fat, rfl, hassign⟩ | ⟨h, hconsume⟩
  · exact passes_nothing hsame
  · exact ⟨[call], rfl, havoids, hkept, trivial⟩
  · exact passes_create ht hb hcreate hkept
  · exact passes_assign (ht.not_freed hb) hassign havoids
  · exact passes_frees hconsume hkept

/-- So are several of them. -/
theorem LeftAlone.passes (ht : Tiled s.memory) (hb : b ∈ s.memory.live) {steps : List (Step κ)}
    (hleft : LeftAlone b s steps) :
    ∃ calls, (s.run steps).memory = s.memory.run calls ∧ s.memory.LeftAlone b calls := by
  induction steps generalizing s with
  | nil => exact ⟨[], rfl, trivial⟩
  | cons step steps ih =>
    obtain ⟨havoids, hkept, hrest⟩ := hleft
    obtain ⟨calls, hmemory, hcalls⟩ := AsyncCalls.passes ht hb havoids hkept
    have hlive := (hcalls.kept ht hb).1
    rw [← hmemory] at hlive
    obtain ⟨later, hend, hlater⟩ := ih (follows_step ht step).tiled hlive hrest
    refine ⟨calls ++ later, ?_, leftAlone_append.mpr ⟨hcalls, by rw [← hmemory]; exact hlater⟩⟩
    rw [run_append, ← hmemory]
    exact hend

/--
**What was written to a block stays there.**

On a fresh memory anything is done until a write succeeds through a pointer into the
live block `b`, and anything afterwards that neither gives `b` back nor writes into it.
Then `b` is live, every buffer within the written bytes reads as that part of them,
and every buffer around them that can be read at all has them in their place.
-/
theorem buffers_isolated {size align : Int} (halign : 1 ≤ align) {fresh : LinearMemory}
    (hfresh : LinearMemory.create size align = .ok fresh) (before later : List (Step κ))
    (hs : ({ memory := fresh } : AsyncCalls κ).run before = s) {fat pointer length : Int}
    (hfat : Packs fat pointer length) {payload : List UInt8} {written : LinearMemory}
    (hwrite : write fat payload s.memory = .ok () written) (hb : b ∈ s.memory.live)
    (hin : b.Holds pointer) (hleft : LeftAlone b { s with memory := written } later)
    {now : AsyncCalls κ} (hnow : ({ s with memory := written } : AsyncCalls κ).run later = now) :
    b ∈ now.memory.live
      ∧ (∀ part (i n : Nat), i + n ≤ payload.length → Packs part (pointer + i) n →
          now.memory.read part = .ok ((payload.drop i).take n))
      ∧ ∀ whole (i n : Nat) bytes, i + payload.length ≤ n → Packs whole (pointer - i) n →
          now.memory.read whole = .ok bytes → (bytes.drop i).take payload.length = payload := by
  have ht : Tiled s.memory := by
    rw [← hs]; exact (follows_steps (tiled_create halign hfresh) before).tiled
  obtain ⟨hroom, rfl⟩ := ht.of_write hwrite hfat hb hin
  have ht' := (follows_setBytes ht pointer payload).tiled
  obtain ⟨calls, hmemory, hcalls⟩ :=
    LeftAlone.passes (s := { s with memory := s.memory.setBytes pointer payload }) ht' hb hleft
  obtain ⟨hlive, hbytes⟩ := hcalls.kept ht' hb
  rw [← hmemory, hnow] at hlive hbytes
  -- the written bytes lie in `b`, and all of those are as they were after the write
  have hstays : now.memory.bytesFrom pointer payload.length = payload := by
    rw [bytesFrom_congr fun a h0 h1 => hbytes a (by unfold Block.Holds at *; omega)]
    exact bytesFrom_setBytes s.memory pointer payload
  refine ⟨hlive, fun part i n hi hpart => ?_, fun whole i n bytes hi hwhole hread => ?_⟩
  · refine read_eq_ok_iff.mpr ⟨_, _, hpart, ⟨b, hlive, by unfold Block.Holds at hin; omega⟩, ?_⟩
    rw [Int.toNat_natCast, bytesFrom_part now.memory pointer hi, hstays]
  · obtain ⟨start, count, hpacks, -, rfl⟩ := read_eq_ok_iff.mp hread
    obtain ⟨rfl, rfl⟩ := hpacks.unique hwhole
    have hplace : pointer - (i : Int) + (i : Int) = pointer := by omega
    rw [Int.toNat_natCast, ← bytesFrom_part now.memory _ hi, hplace, hstays]

/-- Five bytes survive a block that is used again, growth, a write that is too long for them and
a record whose result is assigned and consumed. Three of them are read from their middle. -/
theorem buffers_isolated_reused :
    let fresh : LinearMemory :=
      { byteAt := fun _ => 0, size := 0, align := 8, next := 8, live := [], freed := [] }
    let hello : List UInt8 := [104, 101, 108, 108, 111]
    let s : AsyncCalls Unit := ({ memory := fresh } : AsyncCalls Unit).run
      [.memory (.malloc 5), .memory (.malloc 8), .create, .memory (.free 68719476744)]
    let written : AsyncCalls Unit :=
      { s with memory := stateAfter (write 34359738373 hello) s.memory }
    let later : List (Step Unit) :=
      [.memory (.malloc 3), .memory (.write 68719476739 [1, 2, 3]), .memory (.grow 65536),
        .memory (.write 34359738373 [1, 2, 3, 4, 5, 6]), .assign 0 68719476739, .consume 0,
        .memory (.malloc 70000)]
    LeftAlone ⟨8, 8⟩ written later
      ∧ (written.run later).memory.read 34359738373 = .ok hello
      ∧ (written.run later).memory.read 38654705667 = .ok [101, 108, 108] := by
  intro fresh hello s written later
  have halign : (1 : Int) ≤ 8 := by decide
  have hfresh : LinearMemory.create 0 8 = .ok fresh := rfl
  have hfat : Packs 34359738373 8 5 := by decide
  have hlive : ⟨8, 8⟩ ∈ s.memory.live := by decide +kernel
  have hleft : LeftAlone ⟨8, 8⟩ written later := by decide +kernel
  have hok : outcome (write 34359738373 hello) s.memory = .ok () := by decide +kernel
  have hs : ({ memory := fresh } : AsyncCalls Unit).run
      [.memory (.malloc 5), .memory (.malloc 8), .create, .memory (.free 68719476744)] = s := rfl
  -- from here on the state is opaque, so that nothing computes it again
  clear_value s
  have hwrite := eq_ok_of_outcome hok
  obtain ⟨-, hparts, -⟩ := buffers_isolated halign hfresh _ later hs hfat hwrite hlive
    (by decide) hleft rfl
  exact ⟨hleft, hparts _ 0 5 (by decide) (by decide), hparts _ 1 3 (by decide) (by decide)⟩

end AsyncCalls

end WasmBridge
