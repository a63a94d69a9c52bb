import Mathlib.Data.List.Sort
import Mathlib.Data.Rat.Floor
import KubeCenter.Lib.Gravity

/-! # Dashboard grid geometry

`grid.ts`: where a widget ends up. Coordinates are whole cells, a finite argument of an edit is a
rational. An edit has two halves: the arrangement its last push leaves (`moveArrangement`, ...),
and what `compact` makes of it (`moveItem`, ...). -/
namespace KubeCenter.Dashboard
open Lib

def dashboardColumns : Int := 12
def dashboardMaxRows : Int := 200

structure LayoutItem where
  instanceId : String
  id : String
  x : Int
  y : Int
  w : Int
  h : Int
  params : Option (List (String × String))
deriving DecidableEq

structure Bounds where
  minW : Int
  minH : Int
  one_le_minW : 1 ≤ minW
  one_le_minH : 1 ≤ minH

/-- A number as an edit receives it; a pointer read before layout yields NaN. -/
inductive Coord where
  | finite (q : ℚ)
  | nonFinite
deriving DecidableEq

def Coord.map (f : ℚ → ℚ) : Coord → Coord
  | .finite q => .finite (f q)
  | .nonFinite => .nonFinite

structure Cell where
  x : Coord
  y : Coord
deriving DecidableEq

/-- `Math.round`: halves go up. -/
def round (q : ℚ) : Int := ⌊q + 1 / 2⌋

def clamp (v lo hi : Int) : Int := min hi (max lo v)

def byReadingOrder (p q : LayoutItem) : Int := if p.y - q.y ≠ 0 then p.y - q.y else p.x - q.x

/-- `sort(byReadingOrder)`, which is stable. -/
def sortByReadingOrder (items : List LayoutItem) : List LayoutItem :=
  items.insertionSort fun p q => byReadingOrder p q ≤ 0

def sharesColumn (a b : LayoutItem) : Bool := !(a.x + a.w ≤ b.x || b.x + b.w ≤ a.x)

def sharesRow (a b : LayoutItem) : Bool := !(a.y + a.h ≤ b.y || b.y + b.h ≤ a.y)

def overlaps (a b : LayoutItem) : Bool := sharesColumn a b && sharesRow a b

/-! ## Gravity -/

def compactLoop (settled : List LayoutItem) : List LayoutItem → List LayoutItem
  | [] => settled
  | it :: rest =>
    let y := settled.foldl (fun y s => if sharesColumn it s then max y (s.y + s.h) else y) 0
    compactLoop (settled ++ [{ it with y }]) rest

def compact (items : List LayoutItem) : List LayoutItem :=
  sortByReadingOrder (compactLoop [] (sortByReadingOrder items))

/-! ## The push -/

def pushRound (placed : List LayoutItem) (candidate : LayoutItem) : LayoutItem × Bool :=
  placed.foldl
    (fun (c, moved) p => if overlaps c p then ({ c with y := p.y + p.h }, true) else (c, moved))
    (candidate, false)

/-- Each round that moves the candidate puts it past one more placed item, so `placed.length + 1`
rounds are enough (`pushDown_free`). -/
def pushDown (placed : List LayoutItem) : Nat → LayoutItem → LayoutItem
  | 0, candidate => candidate
  | n + 1, candidate =>
    let (c, moved) := pushRound placed candidate
    if moved then pushDown placed n c else c

def pushLoop (placed : List LayoutItem) : List LayoutItem → List LayoutItem
  | [] => placed
  | it :: rest => pushLoop (placed ++ [pushDown placed (placed.length + 1) it]) rest

/-- The anchor where it was put, everything that collides with it pushed down. -/
def push (items : List LayoutItem) (anchor : LayoutItem) : List LayoutItem :=
  pushLoop [anchor] (sortByReadingOrder (items.filter (·.instanceId ≠ anchor.instanceId)))

def resolve (items : List LayoutItem) (anchor : LayoutItem) : List LayoutItem :=
  compact (push items anchor)

def sameLayout (a b : List LayoutItem) : Bool :=
  a.length == b.length && (a.zip b).all fun (p, q) =>
    p.instanceId == q.instanceId && p.x == q.x && p.y == q.y && p.w == q.w && p.h == q.h

def findTarget (items : List LayoutItem) (instanceId : String) : Except String LayoutItem :=
  match items.find? (·.instanceId = instanceId) with
  | some found => .ok found
  | none => .error s!"grid: item {instanceId} vanished during resolve"

section Settle

variable (instanceId : String) (place : LayoutItem → LayoutItem)

def settleLoop : Nat → List LayoutItem → Except String (List LayoutItem)
  | 0, placed => .ok placed
  | n + 1, placed => do
    let current := compact placed
    let next := push current (place (← findTarget current instanceId))
    if sameLayout (compact next) current then return next else settleLoop n next

def settleArrangement (items : List LayoutItem) : Except String (List LayoutItem) := do
  settleLoop instanceId place items.length (push items (place (← findTarget items instanceId)))

end Settle

/-! ## The edits -/

/-- What an edit leaves before gravity: `none` is a copy of the layout. -/
abbrev Arrangement := Option (List LayoutItem)

def fall (items : List LayoutItem) : Arrangement → List LayoutItem
  | none => items
  | some placed => compact placed

def placeAt (col row : Int) (t : LayoutItem) : LayoutItem :=
  { t with
    x := clamp col 0 (max 0 (dashboardColumns - t.w))
    y := clamp row 0 (max 0 (dashboardMaxRows - t.h)) }

/-- Where the minimum does not fit before the right edge, the edge wins. -/
def sizeTo (bounds : Bounds) (width height : Int) (t : LayoutItem) : LayoutItem :=
  { t with
    w := max 1 (clamp width bounds.minW (dashboardColumns - t.x))
    h := max 1 (min height (dashboardMaxRows - t.y)) }

section Edits

variable (items : List LayoutItem) (instanceId : String)

def moveArrangement (x y : Coord) : Except String Arrangement :=
  match items.find? (·.instanceId = instanceId), x, y with
  | some _, .finite x, .finite y =>
    let col := round x
    let row := max 0 (round y)
    some <$> settleArrangement instanceId (placeAt col row) items
  | _, _, _ => .ok none

def moveItem (x y : Coord) : Except String (List LayoutItem) :=
  fall items <$> moveArrangement items instanceId x y

def layoutHeight : Int := items.foldl (fun m i => max m (i.y + i.h)) 0

def stepLoop (target : LayoutItem) (first : Arrangement) : Nat → Int → Except String Arrangement
  | 0, _ => .ok first
  | n + 1, y => do
    let next ← moveArrangement items instanceId (.finite target.x) (.finite y)
    if (← findTarget (fall items next) instanceId).y > target.y then return next
    else stepLoop target first n (y + 1)

def stepArrangement (dx dy : Coord) : Except String Arrangement :=
  match items.find? (·.instanceId = instanceId), dx, dy with
  | some target, .finite dx, .finite dy => do
    let col := round dx
    let row := round dy
    let first ← moveArrangement items instanceId (.finite ((target.x + col : Int) : ℚ))
      (.finite ((target.y + row : Int) : ℚ))
    if col ≠ 0 ∨ row ≤ 0 then return first
    else if (← findTarget (fall items first) instanceId).y > target.y then return first
    else
      let start := target.y + row + 1
      stepLoop items instanceId target first (layoutHeight items - start + 1).toNat start
  | _, _, _ => .ok none

def stepItem (dx dy : Coord) : Except String (List LayoutItem) :=
  fall items <$> stepArrangement items instanceId dx dy

variable (bounds : Bounds)

def resizeArrangement (w h : Coord) : Except String Arrangement :=
  match items.find? (·.instanceId = instanceId), w, h with
  | some _, .finite w, .finite h =>
    let width := round w
    let height := max 1 (max bounds.minH (round h))
    some <$> settleArrangement instanceId (sizeTo bounds width height) items
  | _, _, _ => .ok none

def resizeItem (w h : Coord) : Except String (List LayoutItem) :=
  fall items <$> resizeArrangement items instanceId bounds w h

def resizeByArrangement (dw dh : Coord) : Except String Arrangement :=
  match items.find? (·.instanceId = instanceId) with
  | some target => resizeArrangement items instanceId bounds
      (dw.map (target.w + ·)) (dh.map (target.h + ·))
  | none => .ok none

def resizeItemBy (dw dh : Coord) : Except String (List LayoutItem) :=
  fall items <$> resizeByArrangement items instanceId bounds dw dh

def resizeAimPasses : Nat := 4

/-- The size `resizeItemToCell` asks for, measured from `current`. -/
def aim (cell : Cell) (current : LayoutItem) : Coord × Coord :=
  (cell.x.map (· - current.x + 1), cell.y.map (· - current.y + 1))

/-- The re-aiming loop: `placed` is the arrangement whose gravity is `out`. -/
def aimLoop (cell : Cell) : Nat → LayoutItem → Arrangement → Except String Arrangement
  | 0, _, placed => .ok placed
  | n + 1, current, placed => do
    let out := fall items placed
    let settled ← findTarget out instanceId
    if settled.y = current.y then return placed
    else
      let (w, h) := aim cell settled
      let next ← resizeArrangement out instanceId bounds w h
      aimLoop cell n settled (next <|> placed)

def resizeToCellArrangement (cell : Cell) : Except String Arrangement :=
  match items.find? (·.instanceId = instanceId) with
  | some current => do
    let (w, h) := aim cell current
    let first ← resizeArrangement items instanceId bounds w h
    aimLoop items instanceId bounds cell (resizeAimPasses - 1) current first
  | none => .ok none

def resizeItemToCell (cell : Cell) : Except String (List LayoutItem) :=
  fall items <$> resizeToCellArrangement items instanceId bounds cell

end Edits

end KubeCenter.Dashboard
