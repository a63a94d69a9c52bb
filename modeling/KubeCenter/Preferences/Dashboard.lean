import KubeCenter.Lib.Control
import KubeCenter.Lib.Go
import KubeCenter.Dashboard.Settled

/-! # The server's check of a stored layout

The geometry half of `ValidateDashboardLayout`: column count, sizes, positions and overlap. Sums
are `int` sums, which wrap; each is taken only after its operands are known to be in the grid. -/
namespace KubeCenter.Preferences
open Lib Go Dashboard

def dashboardColumns : Int := 12
def maxDashboardRows : Int := 200

structure WidgetSpec where
  minW : Int
  minH : Int

def atLeastOne (m : Int) : Int := if m < 1 then 1 else m

section

variable (allowedWidgets : String → WidgetSpec)

def checkGeometry (columns : Int) (i : Nat) (it : LayoutItem) : Except String Unit :=
  let minW := atLeastOne (allowedWidgets it.id).minW
  let minH := atLeastOne (allowedWidgets it.id).minH
  let right := wrapInt64 (it.x + it.w)
  let bottom := wrapInt64 (it.y + it.h)
  if it.w < minW ∨ it.w > columns then
    .error s!"items[{i}] is {it.w} columns wide; {it.id} accepts {minW}-{columns}"
  else if it.h < minH ∨ it.h > maxDashboardRows then
    .error s!"items[{i}] is {it.h} rows tall; {it.id} accepts {minH}-{maxDashboardRows}"
  else if it.x < 0 ∨ it.x ≥ columns then
    .error s!"items[{i}] starts at column {it.x}, outside 0-{columns - 1}"
  else if right > columns then
    .error s!"items[{i}] spans columns {it.x}-{right - 1}, outside 0-{columns - 1}"
  else if it.y < 0 ∨ it.y ≥ maxDashboardRows then
    .error s!"items[{i}] starts at row {it.y}, outside 0-{maxDashboardRows - 1}"
  else if bottom > maxDashboardRows then
    .error s!"items[{i}] spans rows {it.y}-{bottom - 1}, outside 0-{maxDashboardRows - 1}"
  else .ok ()

def itemsOverlap (a b : LayoutItem) : Bool :=
  !(wrapInt64 (a.x + a.w) ≤ b.x || wrapInt64 (b.x + b.w) ≤ a.x ||
    wrapInt64 (a.y + a.h) ≤ b.y || wrapInt64 (b.y + b.h) ≤ a.y)

/-- The first later item that overlaps the item at `a`. -/
def checkAgainst (a : Nat) (it : LayoutItem) : Nat → List LayoutItem → Except String Unit
  | _, [] => .ok ()
  | b, other :: rest =>
    if itemsOverlap it other then .error s!"items[{a}] and items[{b}] overlap"
    else checkAgainst a it (b + 1) rest

def checkOverlap : Nat → List LayoutItem → Except String Unit
  | _, [] => .ok ()
  | a, it :: rest => do
    checkAgainst a it (a + 1) rest
    checkOverlap (a + 1) rest

/-! ## What is accepted -/

/-- At least its minimum, and inside the grid. -/
structure Fits (it : LayoutItem) : Prop where
  minW : atLeastOne (allowedWidgets it.id).minW ≤ it.w
  minH : atLeastOne (allowedWidgets it.id).minH ≤ it.h
  left : 0 ≤ it.x
  right : it.x + it.w ≤ dashboardColumns
  above : 0 ≤ it.y
  below : it.y + it.h ≤ maxDashboardRows

end

section

variable {allowedWidgets : String → WidgetSpec}

theorem one_le_atLeastOne (m : Int) : 1 ≤ atLeastOne m := by
  unfold atLeastOne
  split <;> omega

variable {items : List LayoutItem} {it : LayoutItem}

theorem wrapInt64_of_small {x : Int} (h₀ : -1000 ≤ x) (h₁ : x ≤ 1000) : wrapInt64 x = x := by
  unfold wrapInt64
  omega

theorem checkGeometry_ok_iff {i : Nat} :
    checkGeometry allowedWidgets dashboardColumns i it = .ok () ↔ Fits allowedWidgets it := by
  have hw := one_le_atLeastOne (allowedWidgets it.id).minW
  have hh := one_le_atLeastOne (allowedWidgets it.id).minH
  unfold checkGeometry
  simp only [ite_error_ok_iff]
  simp only [dashboardColumns, maxDashboardRows]
  constructor
  · rintro ⟨h₁, h₂, h₃, h₄, h₅, h₆, _⟩
    -- past the component checks the two sums are small
    rw [wrapInt64_of_small (by omega) (by omega)] at h₄ h₆
    exact ⟨by omega, by omega, by omega, by unfold dashboardColumns; omega, by omega,
      by unfold maxDashboardRows; omega⟩
  · rintro ⟨h₁, h₂, h₃, h₄, h₅, h₆⟩
    simp only [dashboardColumns, maxDashboardRows] at h₄ h₆
    rw [wrapInt64_of_small (x := it.x + it.w) (by omega) (by omega),
      wrapInt64_of_small (x := it.y + it.h) (by omega) (by omega)]
    refine ⟨?_, ?_, ?_, ?_, ?_, ?_, trivial⟩ <;> omega

theorem checkAgainst_ok_iff {a : Nat} :
    ∀ {b}, checkAgainst a it b items = .ok () ↔ ∀ other ∈ items, itemsOverlap it other = false := by
  induction items with
  | nil => intro b; simp [checkAgainst]
  | cons other rest ih =>
    intro b
    rw [checkAgainst, List.forall_mem_cons]
    cases h : itemsOverlap it other with
    | true => simp
    | false => simp [ih]

theorem checkOverlap_ok_iff :
    ∀ {a}, checkOverlap a items = .ok () ↔ items.Pairwise fun a b => itemsOverlap a b = false := by
  induction items with
  | nil => intro a; simp [checkOverlap]
  | cons it rest ih =>
    intro a
    rw [checkOverlap, bind_ok_iff, checkAgainst_ok_iff, ih, List.pairwise_cons]

end

end KubeCenter.Preferences
