import Mathlib.Data.List.Induction
import Mathlib.Order.Bounds.Basic
import WasmBridge.Proofs.Memory.Isolation

/-!
# Requests from end to end

A request is rounded up to whole multiples of the alignment, looks for a freed block
that is large enough, and if there is none gets a new block, for which the memory may
have to grow. This module says what all of that comes to: which block is handed out,
what is left of the freed ones, and how large the memory is then.

Two of the words in that account are made precise here. The *least* size is the least
element of a set of sizes, so that no other way of rounding would do. And the block
that was freed *earliest* is found in the history of the calls, not in the order of a
list: at some moment it was freed already and the other one was not, and it has been
freed ever since.
-/

namespace WasmBridge.LinearMemory

open FatPtr

variable {m m' fresh : LinearMemory} {b c : Block} {length fat size : Int}

/-! ## Sizes -/

/-- The block for a request has the least size that is a multiple of the alignment, holds the
request, and is not empty. -/
theorem blockSize_isLeast (halign : 0 < m.align) (length : Int) :
    IsLeast {size | m.align ∣ size ∧ length ≤ size ∧ 0 < size} (m.blockSize length) := by
  have hle := m.align_le_blockSize length
  refine ⟨⟨align_dvd_blockSize halign length, le_blockSize halign length, by omega⟩, ?_⟩
  rintro size ⟨⟨k, rfl⟩, hlength, hpos⟩
  have hk : 1 ≤ k := by
    by_contra hneg
    have := Int.mul_le_mul_of_nonneg_left (show k ≤ 0 by omega) (Int.le_of_lt halign)
    rw [Int.mul_zero] at this
    omega
  -- the quotient of the rounding is the least number of units that hold the request
  have hquotient : (length + m.align - 1) / m.align ≤ k := by
    refine Int.lt_add_one_iff.mp (Int.ediv_lt_of_lt_mul halign ?_)
    rw [Int.add_mul, Int.one_mul, Int.mul_comm k]
    omega
  have hround : m.round length ≤ m.align * k := by
    rw [round_eq halign, Int.mul_comm m.align]
    exact Int.mul_le_mul_of_nonneg_right hquotient (by omega)
  have hone : m.align ≤ m.align * k := by
    have := Int.mul_le_mul_of_nonneg_left hk (Int.le_of_lt halign)
    rwa [Int.mul_one] at this
  exact Int.max_le.mpr ⟨hround, hone⟩

/-- A memory grows to the least size that reaches behind a new block, by whole pages. -/
theorem sizeWith_isLeast (m : LinearMemory) (size : Int) :
    IsLeast {s | (∃ pages : Nat, s = m.size + pages * pageSize) ∧ m.next + size ≤ s}
      (m.sizeWith size) := by
  have hpages : pageBytes (m.next + size - m.size)
      = -((-(m.next + size - m.size)) / 65536) * 65536 := by
    unfold pageBytes pageSize
    rw [Int.fdiv_eq_ediv_of_nonneg _ (by decide)]
  refine ⟨⟨?_, m.le_sizeWith size⟩, ?_⟩
  · unfold sizeWith
    by_cases hroom : m.size < m.next + size
    · refine ⟨(-((-(m.next + size - m.size)) / 65536)).toNat, ?_⟩
      rw [if_pos hroom, hpages]
      unfold pageSize
      omega
    · exact ⟨0, by rw [if_neg hroom]; omega⟩
  · rintro s ⟨⟨pages, rfl⟩, hreach⟩
    unfold pageSize at *
    unfold sizeWith
    by_cases hroom : m.size < m.next + size
    · rw [if_pos hroom, hpages]
      omega
    · rw [if_neg hroom]
      omega

/-! ## Room -/

/-- The size of a memory is in the range that memories have. -/
def Bounded (m : LinearMemory) : Prop := 0 ≤ m.size ∧ m.size ≤ capacity

theorem checkGrowth_eq_ok_iff (h0 : 0 ≤ size) {count : Int} :
    checkGrowth size count = .ok () ↔ 0 ≤ count ∧ size + count ≤ capacity := by
  unfold checkGrowth isIndex capacity
  split
  · rename_i h
    simp only [Bool.not_eq_true', Bool.and_eq_false_iff, decide_eq_false_iff_not] at h
    exact ⟨nofun, by omega⟩
  · split
    · exact ⟨nofun, by omega⟩
    · split
      · exact ⟨nofun, by omega⟩
      · exact ⟨fun _ => by omega, fun _ => rfl⟩

theorem bounded_create {align : Int} (h : create size align = .ok m) : m.Bounded := by
  obtain ⟨u, hcheck, hm⟩ := Outcome.bind_eq_ok.mp h
  cases hm
  have hsize := (checkGrowth_eq_ok_iff (Int.le_refl 0)).mp hcheck
  exact ⟨hsize.1, by have := hsize.2; dsimp only; omega⟩

/-- Growing a memory leaves it in range. -/
theorem bounded_grow (h : m.Bounded) (extra : Int) : (stateAfter (grow extra) m).Bounded := by
  cases hcheck : checkGrowth m.size (pageBytes extra) with
  | ok u =>
    have hsize := (checkGrowth_eq_ok_iff h.1).mp hcheck
    have hgrown : grow extra m = .ok () { m with size := m.size + pageBytes extra } := by
      rw [grow_eq, hcheck]
    rw [stateAfter_ok hgrown]
    exact ⟨Int.add_nonneg h.1 hsize.1, hsize.2⟩
  | error e =>
    have hfull : grow extra m = .error e m := by rw [grow_eq, hcheck]
    rw [stateAfter_error hfull]
    exact h

/-- There is room for a block: a freed one that is large enough, or a memory that reaches behind
a new one. -/
def HasRoom (m : LinearMemory) (size : Int) : Prop :=
  (∃ b ∈ m.freed, size ≤ b.size) ∨ m.sizeWith size ≤ capacity

instance (m : LinearMemory) (size : Int) : Decidable (m.HasRoom size) :=
  inferInstanceAs (Decidable ((∃ b ∈ m.freed, _) ∨ _))

/-- A block that no freed one will do for stands behind all others, if there is room. -/
theorem allocate_new (hb : m.Bounded) (hnone : takeFreed? size m.freed = none) :
    (m.sizeWith size ≤ capacity ∧ allocate size m
        = .ok ⟨m.next, size⟩ { m with size := m.sizeWith size, next := m.next + size })
      ∨ capacity < m.sizeWith size ∧ ∃ e, allocate size m = .error e m := by
  rw [allocate_eq, hnone]
  unfold sizeWith
  by_cases hroom : m.size < m.next + size
  · have hcount := le_pageBytes (m.next + size - m.size)
    simp only [if_pos hroom, grow_eq]
    cases hcheck : checkGrowth m.size (pageBytes (m.next + size - m.size)) with
    | ok u => exact .inl ⟨((checkGrowth_eq_ok_iff hb.1).mp hcheck).2, rfl⟩
    | error e =>
      refine .inr ⟨?_, e, rfl⟩
      by_contra hfits
      rw [(checkGrowth_eq_ok_iff hb.1).mpr ⟨by omega, by omega⟩] at hcheck
      cases hcheck
  · simp only [if_neg hroom]
    exact .inl ⟨hb.2, rfl⟩

/-! ## What a request leaves behind -/

/-- A freed block is taken whole: of those that are large enough the one that stands first. -/
structure Reuses (m m' : LinearMemory) (size : Int) (b : Block) : Prop where
  taken : ∃ before after, m.freed = before ++ b :: after ∧ m'.freed = before ++ after
    ∧ ∀ c ∈ before, c.size < size
  enough : size ≤ b.size
  next : m'.next = m.next
  size : m'.size = m.size

/-- A new block stands behind all others, and the memory has as many pages more as it takes to
reach behind it. -/
structure Appends (m m' : LinearMemory) (size : Int) (b : Block) : Prop where
  none : ∀ c ∈ m.freed, c.size < size
  block : b = ⟨m.next, size⟩
  freed : m'.freed = m.freed
  next : m'.next = m.next + size
  size : IsLeast {s | (∃ pages : Nat, s = m.size + pages * pageSize) ∧ m'.next ≤ s} m'.size

/-- What a request leaves behind, be it returned or not: a block that was not live is live. -/
structure Placed (m m' : LinearMemory) (length : Int) (b : Block) : Prop where
  fresh : ∀ c ∈ m.live, c.start ≠ b.start
  live : m'.live = b :: m.live
  bytes : m'.byteAt = m.byteAt
  align : m'.align = m.align
  place : Reuses m m' (m.blockSize length) b ∨ Appends m m' (m.blockSize length) b

theorem Placed.enough (h : Placed m m' length b) : m.blockSize length ≤ b.size := by
  rcases h.place with hreuse | hnew
  · exact hreuse.enough
  · rw [hnew.block]

/-- Where there is room a block is placed, and then the pointer is made; where there is none the
request fails and changes nothing. -/
theorem request_cases (h : Tiled m) (hb : m.Bounded) (length : Int) :
    (m.HasRoom (m.blockSize length) ∧ ∃ b m', Placed m m' length b
        ∧ malloc length m = orFail (pack b.start length) m')
      ∨ ¬ m.HasRoom (m.blockSize length) ∧ ∃ e, malloc length m = .error e m := by
  rw [malloc_eq h.align_pos]
  cases htake : takeFreed? (m.blockSize length) m.freed with
  | some found =>
    obtain ⟨b, others⟩ := found
    obtain ⟨before, after, hfreed, rfl, hbefore, henough⟩ := takeFreed?_eq_some htake
    have hfresh := h.taken_fresh hfreed
    have hmem : b ∈ m.freed := by rw [hfreed]; simp
    rw [allocate_eq, htake]
    dsimp only
    rw [setLive_eq (m := { m with freed := before ++ after }) hfresh]
    refine .inl ⟨.inl ⟨b, hmem, henough⟩, b, _, ?_, rfl⟩
    exact ⟨hfresh, rfl, rfl, rfl, .inl ⟨⟨before, after, hfreed, rfl, hbefore⟩, henough, rfl, rfl⟩⟩
  | none =>
    have hsmall := takeFreed?_eq_none htake
    rcases allocate_new hb htake with ⟨hroom, hr⟩ | ⟨hfull, e, hr⟩
    · rw [hr]
      dsimp only
      rw [setLive_eq h.next_fresh]
      refine .inl ⟨.inr hroom, ⟨m.next, m.blockSize length⟩, _, ?_, rfl⟩
      exact ⟨h.next_fresh, rfl, rfl, rfl, .inr ⟨hsmall, rfl, rfl, rfl, m.sizeWith_isLeast _⟩⟩
    · refine .inr ⟨?_, e, by rw [hr]⟩
      rintro (⟨c, hc, henough⟩ | hroom)
      · exact absurd (hsmall c hc) (by omega)
      · omega

theorem bounded_malloc (h : Tiled m) (hb : m.Bounded) (length : Int) :
    (stateAfter (malloc length) m).Bounded := by
  rcases request_cases h hb length with ⟨hroom, b, m', hplaced, hr⟩ | ⟨-, e, hr⟩
  · rw [stateAfter_orFail hr]
    unfold Bounded
    rcases hplaced.place with hreuse | hnew
    · rw [hreuse.size]
      exact hb
    · have hleast := hnew.size
      rw [hnew.next] at hleast
      have hsize := hleast.unique (m.sizeWith_isLeast _)
      have hgrown : m.size ≤ m'.size := by
        obtain ⟨⟨pages, hpages⟩, -⟩ := hleast.1
        unfold pageSize at hpages
        omega
      -- no freed block is large enough, so the room there is must be behind the others
      refine ⟨Int.le_trans hb.1 hgrown, ?_⟩
      rcases hroom with ⟨c, hc, henough⟩ | hroom
      · exact absurd (hnew.none c hc) (by omega)
      · rw [hsize]
        exact hroom
  · rw [stateAfter_error hr]
    exact hb

/-- Every call leaves the memory in range. -/
theorem bounded_after (h : Tiled m) (hb : m.Bounded) (call : Call) : (call.after m).Bounded := by
  cases call with
  | malloc length => exact bounded_malloc h hb length
  | grow extra => exact bounded_grow hb extra
  | read fat | readWord offset => exact hb
  | free fat =>
    rcases free_cases fat m with ⟨_, _, _, _, _, hr⟩ | ⟨e, hr⟩
    · rw [Call.after, stateAfter_ok hr]
      exact hb
    · rw [Call.after, stateAfter_error hr]
      exact hb
  | write fat payload =>
    rcases write_cases fat payload m with ⟨_, _, _, _, ⟨c, hc, hin⟩, hr⟩ | ⟨e, hr⟩
    · rw [Call.after, stateAfter_ok hr, h.overwrite_eq hc hin]
      exact hb
    · rw [Call.after, stateAfter_error hr]
      exact hb
  | writeWord offset value =>
    rcases writeWord_cases offset value m with hr | ⟨_, _, _, _, hr⟩
    · rw [Call.after, hr]
      exact hb
    · rw [Call.after, hr]
      exact hb

theorem bounded_run (h : Tiled m) (hb : m.Bounded) (calls : List Call) : (m.run calls).Bounded := by
  induction calls generalizing m with
  | nil => exact hb
  | cons call calls ih => exact ih (follows_after h call).tiled (bounded_after h hb call)

/-! ## The order of the freed blocks -/

/-- At some moment `b` was freed and `c` was not, and since then `b` has been freed. -/
def FreedBefore (fresh : LinearMemory) (calls : List Call) (b c : Block) : Prop :=
  ∃ earlier later, calls = earlier ++ later ∧ c ∉ (fresh.run earlier).freed
    ∧ ∀ some, some <+: later → b ∈ (fresh.run (earlier ++ some)).freed

/-- The order lasts as long as the block stays freed. -/
theorem FreedBefore.concat {calls : List Call} (h : FreedBefore fresh calls b c) {call : Call}
    (hb : b ∈ (fresh.run (calls ++ [call])).freed) : FreedBefore fresh (calls ++ [call]) b c := by
  obtain ⟨earlier, later, rfl, hc, hsince⟩ := h
  refine ⟨earlier, later ++ [call], by rw [List.append_assoc], hc, fun some hsome => ?_⟩
  rcases List.prefix_concat_iff.mp hsome with rfl | hsome
  · rw [← List.append_assoc]
    exact hb
  · exact hsince some hsome

/-- A call takes blocks from the freed ones or puts one behind them that was live. -/
theorem freed_cases (h : Tiled m) (call : Call) :
    ((call.after m).freed).Sublist m.freed
      ∨ ∃ c ∈ m.live, (call.after m).freed = m.freed ++ [c] := by
  rcases lists_cases h call rfl with
    ⟨-, hfreed⟩ | ⟨_, c, -, -, hfreed | ⟨before, after, hbefore, hfreed⟩⟩
      | ⟨_, c, -, hc, -, hfreed⟩
  · exact .inl (by rw [hfreed])
  · exact .inl (by rw [hfreed])
  · refine .inl ?_
    rw [hfreed, hbefore]
    exact (List.Sublist.refl before).append (List.sublist_cons_self c after)
  · exact .inr ⟨c, hc, hfreed⟩

/-- **The freed blocks stand in the order in which they were freed.** -/
theorem freedBefore_of_sublist (h : Tiled fresh) (hnone : fresh.freed = []) (calls : List Call)
    (hsub : [b, c].Sublist (fresh.run calls).freed) : FreedBefore fresh calls b c := by
  -- by the calls from the last one on: only a free puts a block behind the others
  induction calls using List.reverseRecOn generalizing b c with
  | nil =>
    rw [show fresh.run [] = fresh from rfl, hnone] at hsub
    cases hsub
  | append_singleton calls call ih =>
    have ht := (follows_run h calls).tiled
    have hb : b ∈ (fresh.run (calls ++ [call])).freed := hsub.subset List.mem_cons_self
    have hrun : fresh.run (calls ++ [call]) = call.after (fresh.run calls) := run_append _ _ _
    rcases freed_cases ht call with hfewer | ⟨d, hd, hfreed⟩
    · rw [hrun] at hsub
      exact (ih (hsub.trans hfewer)).concat hb
    · rw [hrun, hfreed] at hsub
      obtain ⟨front, last, hpair, hfront, hlast⟩ := List.sublist_append_iff.mp hsub
      rcases List.sublist_singleton.mp hlast with rfl | rfl
      · rw [List.append_nil] at hpair
        exact (ih (hpair ▸ hfront)).concat hb
      · -- the other block has just been freed
        obtain ⟨rfl, rfl⟩ : front = [b] ∧ d = c := by
          have hlength := congrArg List.length hpair
          obtain _ | ⟨x, _ | ⟨y, rest⟩⟩ := front
          · simp at hlength
          · simp only [List.singleton_append, List.cons.injEq, and_true] at hpair
            exact ⟨by rw [hpair.1], hpair.2.symm⟩
          · simp at hlength
        refine FreedBefore.concat ⟨calls, [], (List.append_nil _).symm, ht.not_freed hd, ?_⟩ hb
        intro some hsome
        rw [List.prefix_nil.mp hsome, List.append_nil]
        exact hfront.subset List.mem_cons_self

/-- The freed block that is taken was freed before all others that are large enough. -/
theorem Reuses.earliest (h : Reuses m m' size b) (hfresh : Tiled fresh) (hnone : fresh.freed = [])
    {calls : List Call} (hm : fresh.run calls = m) (hc : c ∈ m.freed) (henough : size ≤ c.size)
    (hne : c ≠ b) : FreedBefore fresh calls b c := by
  obtain ⟨before, after, hfreed, -, hbefore⟩ := h.taken
  rw [hfreed] at hc
  rcases List.mem_append.mp hc with hc | hc
  · exact absurd (hbefore c hc) (by omega)
  · have hafter : c ∈ after := (List.mem_cons.mp hc).resolve_left hne
    refine freedBefore_of_sublist hfresh hnone calls ?_
    rw [hm, hfreed]
    have hpair : [b, c].Sublist (b :: after) := (List.singleton_sublist.mpr hafter).cons_cons b
    exact hpair.trans (List.sublist_append_right before _)

/-! ## From end to end -/

/--
**A request from end to end.**

On a fresh memory anything is done, and then a request for `length` bytes returns a
pointer. It packs the start of a block and the length. The block was not live and is
now, it holds the request and one byte at least, and it lies within the memory behind
offset zero. All other live blocks stay what they were, and no byte changes.

The size that is asked for is the least multiple of the alignment that holds the
request and is not empty. If some freed block has it, one of these is taken whole, the
one that was freed before the others, and neither the place of the next new block nor
the size of the memory changes. If none has it, the block is a new one of exactly that
size, the place of the next new block moves on behind it, and the memory grows by the
least number of whole pages with which it reaches so far.
-/
theorem request_end_to_end {align : Int} (halign : 1 ≤ align)
    (hfresh : create size align = .ok fresh) (calls : List Call) (hm : fresh.run calls = m)
    (hr : malloc length m = .ok fat m') :
    IsLeast {need | m.align ∣ need ∧ length ≤ need ∧ 0 < need} (m.blockSize length)
      ∧ ∃ b, unpack fat = .ok (b.start, length)
        ∧ (∀ c ∈ m.live, c.start ≠ b.start) ∧ m'.live = b :: m.live
        ∧ max length 1 ≤ b.size ∧ 0 < b.start ∧ b.start + b.size ≤ m'.size
        ∧ m'.byteAt = m.byteAt
        ∧ ((∃ c ∈ m.freed, m.blockSize length ≤ c.size) →
            Reuses m m' (m.blockSize length) b
              ∧ ∀ c ∈ m.freed, m.blockSize length ≤ c.size → c ≠ b → FreedBefore fresh calls b c)
        ∧ ((∀ c ∈ m.freed, c.size < m.blockSize length) →
            Appends m m' (m.blockSize length) b) := by
  have htiled := tiled_create halign hfresh
  have hnone : fresh.freed = [] := by
    obtain ⟨_, -, hcreated⟩ := Outcome.bind_eq_ok.mp hfresh
    cases hcreated
    rfl
  have ht : Tiled m := hm ▸ (follows_run htiled calls).tiled
  have hb : m.Bounded := hm ▸ bounded_run htiled (bounded_create hfresh) calls
  rcases request_cases ht hb length with ⟨-, b, m₁, hplaced, he⟩ | ⟨-, e, he⟩
  swap
  · rw [hr] at he
    cases he
  -- the request returned, so what it left behind is the memory that it returned with
  obtain ⟨hpack, rfl⟩ := orFail_eq_ok_iff.mp (he.symm.trans hr)
  have hleast := blockSize_isLeast ht.align_pos length
  have hafter : Tiled m₁ := by
    rw [← stateAfter_ok hr]
    exact (follows_malloc ht length).tiled
  have hwithin := hafter.within (mem_blocks.mpr (.inl (hplaced.live ▸ List.mem_cons_self)))
  have halign' := hafter.align_pos
  have henough := hplaced.enough
  have hholds : length ≤ m.blockSize length ∧ 0 < m.blockSize length := hleast.1.2
  refine ⟨hleast, b, unpack_eq_ok_iff.mpr (pack_eq_ok_iff.mp hpack), hplaced.fresh, hplaced.live,
    by omega, by omega, by omega, hplaced.bytes, ?_, ?_⟩
  · rintro ⟨d, hd, hlarge⟩
    rcases hplaced.place with hreuse | hnew
    · exact ⟨hreuse, fun c hc hlarge hne => hreuse.earliest htiled hnone hm hc hlarge hne⟩
    · exact absurd (hnew.none d hd) (by omega)
  · intro hsmall
    rcases hplaced.place with hreuse | hnew
    · obtain ⟨before, after, hfreed, -⟩ := hreuse.taken
      have hmem : b ∈ m.freed := by rw [hfreed]; simp
      exact absurd (hsmall b hmem) (by have := hreuse.enough; omega)
    · exact hnew

/-- Of three freed blocks the first is too small, and of the others the one that was freed before is
taken, although it is the larger one. A request that none will do for has the memory grow by a
page. -/
theorem request_end_to_end_reused :
    let fresh : LinearMemory :=
      { byteAt := fun _ => 0, size := 65536, align := 8, next := 8, live := [], freed := [] }
    let calls : List Call := [.malloc 3, .malloc 60, .malloc 20,
      .free 34359738371, .free 68719476796, .free 343597383700]
    let m := fresh.run calls
    let reused := stateAfter (malloc 17) m
    let grown := stateAfter (malloc 65530) m
    (1 : Int) ≤ 8 ∧ create 65536 8 = .ok fresh
      ∧ m.freed = [⟨8, 8⟩, ⟨16, 64⟩, ⟨80, 24⟩]
      ∧ malloc 17 m = .ok 68719476753 reused ∧ Reuses m reused 24 ⟨16, 64⟩
      ∧ FreedBefore fresh calls ⟨16, 64⟩ ⟨80, 24⟩
      ∧ malloc 65530 m = .ok 446676664314 grown ∧ Appends m grown 65536 ⟨104, 65536⟩
      ∧ grown.size = 131072 := by
  intro fresh calls m reused grown
  have halign : (1 : Int) ≤ 8 := by decide
  have hfresh : create 65536 8 = .ok fresh := rfl
  have hfreed : m.freed = [⟨8, 8⟩, ⟨16, 64⟩, ⟨80, 24⟩] := by decide +kernel
  have hneed : m.blockSize 17 = 24 ∧ m.blockSize 65530 = 65536 := by decide +kernel
  have hreused : malloc 17 m = .ok 68719476753 reused := eq_ok_of_outcome (by decide +kernel)
  have hgrown : malloc 65530 m = .ok 446676664314 grown := eq_ok_of_outcome (by decide +kernel)
  have hsize : grown.size = 131072 := by decide +kernel
  have hm : fresh.run calls = m := rfl
  clear_value m reused grown
  obtain ⟨-, b, hfat, -, -, -, -, -, -, hreuses, -⟩ :=
    request_end_to_end halign hfresh calls hm hreused
  obtain ⟨-, d, hfat', -, -, -, -, -, -, -, happends⟩ :=
    request_end_to_end halign hfresh calls hm hgrown
  rw [hneed.1, hfreed] at hreuses
  rw [hneed.2, hfreed] at happends
  obtain ⟨hreuse, hearliest⟩ := hreuses ⟨⟨16, 64⟩, by decide, by decide⟩
  have happend := happends (by decide)
  obtain rfl : b = ⟨16, 64⟩ := by
    obtain ⟨before, after, htaken, -⟩ := hreuse.taken
    have hmem : b ∈ m.freed := by rw [htaken]; simp
    obtain ⟨hstart, -⟩ :=
      (unpack_eq_ok_iff.mp hfat).unique (show Packs 68719476753 16 17 by decide)
    rw [hfreed] at hmem
    simp only [List.mem_cons, List.not_mem_nil, or_false] at hmem
    rcases hmem with rfl | rfl | rfl
    · cases hstart
    · rfl
    · cases hstart
  obtain rfl : d = ⟨104, 65536⟩ := by
    obtain ⟨hstart, -⟩ :=
      (unpack_eq_ok_iff.mp hfat').unique (show Packs 446676664314 104 65530 by decide)
    have hblock := happend.block
    rw [hblock] at hstart
    rw [hblock, show m.next = 104 from hstart]
  exact ⟨halign, hfresh, hfreed, hreused, hreuse, hearliest ⟨80, 24⟩ (by decide) (by decide)
    (by decide), hgrown, happend, hsize⟩

end WasmBridge.LinearMemory
