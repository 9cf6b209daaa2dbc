/-!
# Sorting by runs

A stable sort that makes use of the order that is already there. The list is cut into runs, each
ascending or strictly descending; short runs are filled up by insertion, and neighbouring runs are
merged, those first whose seam lies deepest in the halving of the whole list. While one of two runs
keeps winning, the merge leaps ahead in it instead of comparing item by item.

In an order in which any two items can be placed, every stable sort gives the same list. An item
that comes neither before nor after any other, as a NaN does among numbers, has no such place, and
where it ends up depends on which items are compared. So the comparisons are part of what is defined
here.
-/

namespace WasmBridge.RunSort

variable {α : Type}

/-! ## Searching -/

/-- The position between `low` and `high` where a test stops to hold, found by halving. The middle
of an even number of positions is the later one, or with a `slack` of one the earlier. -/
def search (test : α → Bool) (items : Array α) (slack low high : Nat) : Nat :=
  if low < high then
    let middle := low + (high - low - slack) / 2
    if items[middle]?.any test then search test items slack (middle + 1) high
    else search test items slack low middle
  else low
  termination_by high - low
  decreasing_by all_goals omega

/-- Positions, each about twice as far as the one before, where a test holds: the last of them, and
the next after it. -/
def probe (test : α → Bool) (items : Array α) (last next : Nat) : Nat × Nat :=
  if _ : next < items.size then
    if test items[next] then probe test items next (2 * next + 1) else (last, next)
  else (last, next)
  termination_by items.size - next

/-- How many items at the front of a list pass a test, found by leaps. -/
def leadingCount (test : α → Bool) (slack : Nat) (items : List α) : Nat :=
  let items := items.toArray
  if items[0]?.any test then
    let (last, next) := probe test items 0 1
    search test items slack (last + 1) (Nat.min next items.size)
  else 0

/-! ## Merging two runs -/

/-- A merge goes from the front to the back, or on reversed runs from the back to the front. -/
structure Course (α : Type) where
  /-- An item of the right run goes before one of the left. -/
  takesRight : (left right : α) → Bool
  backward : Bool

/-- The slack of searches in runs that are reversed or not. -/
def Course.slack (c : Course α) : Nat := c.backward.toNat

/-- A merge under way. -/
structure Merge (α : Type) where
  /-- What has been merged, the latest first. -/
  merged : List α
  left : List α
  right : List α
  /-- How often in a row a run must win before the merge leaps ahead in it. -/
  patience : Nat

namespace Merge

/-- The merge with items taken from the left run. -/
def takeLeft (m : Merge α) (count : Nat) : Merge α :=
  { m with merged := (m.left.take count).reverse ++ m.merged, left := m.left.drop count }

/-- The merge with items taken from the right run. -/
def takeRight (m : Merge α) (count : Nat) : Merge α :=
  { m with merged := (m.right.take count).reverse ++ m.merged, right := m.right.drop count }

/-- Nothing is left to be compared: the last item of the left run is known to come last. -/
def isOver (m : Merge α) : Bool := m.right.isEmpty || (m.left.drop 1).isEmpty

/-- The merged run, when the merge is over. -/
def result (m : Merge α) : List α :=
  m.merged.reverse ++ if m.left.length = 1 then m.right ++ m.left else m.left ++ m.right

/-- Takes the items of the left run that go before the next one of the right, and that one. -/
def leapLeft (c : Course α) (m : Merge α) : Nat × Merge α :=
  match m.right with
  | [] => (0, m)
  | r :: _ =>
    let count := leadingCount (fun l => !c.takesRight l r) c.slack m.left
    let m := m.takeLeft count
    (count, if m.isOver then m else m.takeRight 1)

/-- Takes the items of the right run that go before the next one of the left, and that one. -/
def leapRight (c : Course α) (m : Merge α) : Nat × Merge α :=
  match m.left with
  | [] => (0, m)
  | l :: _ =>
    let count := leadingCount (c.takesRight l) c.slack m.right
    let m := m.takeRight count
    (count, if m.isOver then m else m.takeLeft 1)

/-- The patience that a sort begins with. -/
def firstPatience : Nat := 7

/-- Leaps ahead in both runs. Says whether one of the leaps was worth it. -/
def leap (c : Course α) (m : Merge α) : Bool × Merge α :=
  let m := { m with patience := Nat.max 1 (m.patience - 1) }
  let (first, m) := if c.backward then m.leapRight c else m.leapLeft c
  if m.isOver then (false, m)
  else
    let (second, m) := if c.backward then m.leapLeft c else m.leapRight c
    (firstPatience ≤ first || firstPatience ≤ second, m)

/-- How a merge goes on: by leaps, or item by item where one run has just won some times in a
row. -/
inductive Pace where
  | leaping
  | stepping (leftWins rightWins : Nat)

/-- Carries a merge on until it is over. Every step takes an item, so their number bounds the
steps. -/
def run (c : Course α) : (fuel : Nat) → Pace → Merge α → Merge α
  | 0, _, m => m
  | fuel + 1, .leaping, m =>
    let (again, m) := m.leap c
    if m.isOver then m
    else if again then run c fuel .leaping m
    else run c fuel (.stepping 0 0) { m with patience := m.patience + 1 }
  | fuel + 1, .stepping leftWins rightWins, m =>
    match m.left, m.right with
    | l :: _, r :: _ =>
      let right := c.takesRight l r
      let wins := if right then rightWins + 1 else leftWins + 1
      let next := if right then m.takeRight 1 else m.takeLeft 1
      if next.isOver then next
      else if next.patience ≤ wins then
        run c fuel .leaping { next with patience := next.patience + 1 }
      else run c fuel (if right then .stepping 0 wins else .stepping wins 0) next
    | _, _ => m

/-- Two runs merged, where the first item of the right one is known to come first. Comes with the
patience to go on with. -/
def ofRuns (c : Course α) (patience : Nat) (left right : List α) : List α × Nat :=
  let m := Merge.takeRight { merged := [], left, right, patience } 1
  let m := if m.isOver then m else m.run c (left.length + right.length) (.stepping 0 0)
  (m.result, m.patience)

end Merge

section

variable (before : α → α → Bool)

/-- Two neighbouring runs as one. What comes before the whole of the other run at the front, and
after it at the back, stays where it is; the rest is merged from the side of the shorter part. -/
def join (patience : Nat) (left right : List α) : List α × Nat :=
  match right with
  | [] => (left, patience)
  | r :: _ =>
    let (front, left) := left.splitAt (leadingCount (fun l => !before r l) 0 left)
    match left.getLast? with
    | none => (front ++ right, patience)
    | some l =>
      let stays := leadingCount (fun r => !before r l) 1 right.reverse
      let (right, back) := right.splitAt (right.length - stays)
      if right.isEmpty then (front ++ left ++ back, patience)
      else if left.length ≤ right.length then
        let (merged, patience) := Merge.ofRuns ⟨fun l r => before r l, false⟩ patience left right
        (front ++ merged ++ back, patience)
      else
        let (merged, patience) := Merge.ofRuns ⟨before, true⟩ patience right.reverse left.reverse
        (front ++ merged.reverse ++ back, patience)

/-! ## Runs -/

/-- The longest beginning of a list in which each item stands to the next in a relation. -/
def chain (related : α → α → Bool) : α → List α → List α × List α
  | x, [] => ([x], [])
  | x, y :: ys =>
    if related x y then
      let (run, rest) := chain related y ys
      (x :: run, rest)
    else ([x], y :: ys)

/-- The run at the front of a list, put into ascending order, and the rest. -/
def takeRun : List α → List α × List α
  | x :: y :: ys =>
    if before y x then
      let (run, rest) := chain (fun a b => before b a) x (y :: ys)
      (run.reverse, rest)
    else chain (fun a b => !before b a) x (y :: ys)
  | items => (items, [])

/-- A run with an item put behind all that it does not go before. -/
def insert (run : List α) (item : α) : List α :=
  let place := search (fun x => !before item x) run.toArray 0 0 run.length
  run.take place ++ item :: run.drop place

/-- The runs of a list, each filled up to `least` items where there are as many. -/
def runs (least : Nat) : (fuel : Nat) → List α → List (List α)
  | 0, _ | _, [] => []
  | fuel + 1, items =>
    let (run, rest) := takeRun before items
    let missing := least - run.length
    (rest.take missing).foldl (insert before) run :: runs least fuel (rest.drop missing)

/-- The least length of a run of `count` items: such that the number of runs is about a power of
two. -/
def leastRun (count : Nat) (odd : Nat := 0) : Nat :=
  if count < 64 then count + odd else leastRun (count / 2) (Nat.max odd (count % 2))

/-- How deep the seam between two runs lies in the halving of the whole list: the number of halvings
until their middles, given as twice their places, fall apart. -/
def seamDepth (count : Nat) : (fuel : Nat) → (leftMiddle rightMiddle : Nat) → Nat
  | 0, _, _ => 0
  | fuel + 1, a, b =>
    if count ≤ a then 1 + seamDepth count fuel (2 * (a - count)) (2 * (b - count))
    else if count ≤ b then 1
    else 1 + seamDepth count fuel (2 * a) (2 * b)

/-! ## The whole list -/

/-- A run that waits, with the depth of the seam behind it. -/
structure Waiting (α : Type) where
  run : List α
  seam : Nat

/-- Joins a run to the waiting ones, the nearest first, whose seam lies deeper than `seam`. -/
def settle (seam : Nat) : List (Waiting α) → List α → Nat → List (Waiting α) × List α × Nat
  | [], current, patience => ([], current, patience)
  | top :: waiting, current, patience =>
    if seam < top.seam then
      let (joined, patience) := join before patience top.run current
      settle seam waiting joined patience
    else (top :: waiting, current, patience)

/-- Joins all runs, the last one first in the list. A run that is shorter than the one behind its
neighbour is joined to the neighbour first. -/
def joinAll : (fuel : Nat) → List (List α) → Nat → List α
  | fuel + 1, a :: b :: c :: rest, patience =>
    if c.length < a.length then
      let (joined, patience) := join before patience c b
      joinAll fuel (a :: joined :: rest) patience
    else
      let (joined, patience) := join before patience b a
      joinAll fuel (joined :: c :: rest) patience
  | _, [a, b], patience => (join before patience b a).1
  | _, runs, _ => runs.flatten

/-- Works off the runs of a list of `count` items from `start` on, where `current` begins. -/
def mergeRuns (count : Nat) :
    (start : Nat) → List (Waiting α) → (current : List α) → List (List α) → Nat → List α
  | _, waiting, current, [], patience =>
    joinAll before waiting.length (current :: waiting.map (·.run)) patience
  | start, waiting, current, next :: rest, patience =>
    let middle := 2 * start + current.length
    let seam := seamDepth count (count + 1) middle (middle + current.length + next.length)
    let (waiting, joined, patience) := settle before seam waiting current patience
    mergeRuns count (start + current.length) (⟨joined, seam⟩ :: waiting) next rest patience

/-- The items in order, where `before` says which of two goes first. -/
def sort (items : List α) : List α :=
  match runs before (leastRun items.length) items.length items with
  | [] => []
  | first :: rest => mergeRuns before items.length 0 [] first rest Merge.firstPatience

end

end WasmBridge.RunSort
