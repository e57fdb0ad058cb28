import PolyRow.Expr.Comparison
import PolyRow.Logging.Event
import PolyRow.Lowering.Row

/-!
# Reports of operations

The events that comparisons and lowerings give rise to, as functions of their
arguments. The operations themselves know nothing of them, so a report can
neither change a result nor be forgotten on one of its paths.

A failed lowering reports nothing. A constraint row that fails on its bounds
reports the lowering before it and then the bounds it rejects.
-/

namespace PolyRow

open Logging

/-- Numbers in field texts have their shortest digits and keep a point; below
`1e-4` and from `1e16` they have an exponent. -/
def Logging.fieldNumberStyle : Decimal.Style :=
  ⟨.up, fun p => decide (-4 ≤ p ∧ p < 16), true, false⟩

example : Logging.fieldNumberStyle.render 5 = "5.0" := by decide +kernel

example : Logging.fieldNumberStyle.render 1e16 = "1e16" := by decide +kernel

example : Logging.fieldNumberStyle.render 0.0001 = "0.0001" := by decide +kernel

example : Logging.fieldNumberStyle.render 1.5e-7 = "1.5e-7" := by decide +kernel

/-- A bound that may be missing, as a field text. -/
def Logging.boundText : Option Float → String
  | none => "None"
  | some x => "Some(" ++ fieldNumberStyle.render x ++ ")"

namespace Expr

/-- Comparing reports the sense, the number of terms and the bounds set. -/
def compareEvents (e : Expr Float) (other : Operand Float) (s : ComparisonSense) :
    List Event :=
  let result := e.compare other s
  [{ level := .trace
     target := "polymodel_expr::expr::core"
     fields := [
       ("component", .text "expr"),
       ("operation", .text "compare"),
       ("sense", .text s.label),
       ("terms", .count result.size),
       ("lower", .text (boundText result.lower)),
       ("upper", .text (boundText result.upper)),
       ("message", .text "Built bounded expression")] }]

end Expr

/-- An event of the lowering of expressions. -/
def Logging.loweringEvent (level : Level) (operation : String)
    (fields : List (String × FieldValue)) : Event where
  level := level
  target := "polymodel_core::lower"
  fields := ("component", .text "lower") :: ("operation", .text operation) :: fields

/-- Lowering reports how many terms of each degree are left. -/
def Lowered.events (e : Expr Float) (config : LowerConfig Float) : List Event :=
  match Lowered.ofExpr e config with
  | .error _ => []
  | .ok l => [
    loweringEvent .trace "lower" [
      ("status", .text "success"),
      ("simplify_level", .text config.simplifyLevel.label),
      ("linear", .count l.linear.length),
      ("bilinear", .count l.bilinear.length),
      ("higher", .count l.higher.length),
      ("message", .text "Lowered expression")]]

/-- A constraint row reports its bounds, accepted or rejected. -/
def ConstraintRow.events (e : Expr Float) (config : LowerConfig Float) : List Event :=
  Lowered.events e config ++
    match ConstraintRow.ofExpr e config with
    | .error (.invalidBounds lower upper) => [
      loweringEvent .debug "constraint_row" [
        ("status", .text "error"),
        ("lower", .number lower),
        ("upper", .number upper),
        ("message", .text "Rejected constraint with invalid bounds")]]
    | .error _ => []
    | .ok row => [
      loweringEvent .debug "constraint_row" [
        ("status", .text "success"),
        ("terms", .count row.terms.termCount),
        ("lower", .number row.bounds.lower),
        ("upper", .number row.bounds.upper),
        ("message", .text "Lowered constraint row")]]

/-- An objective row reports bounds that it ignores, before anything else, and
its direction and size. -/
def ObjectiveRow.events (e : Expr Float) (sense : Sense) (config : LowerConfig Float) :
    List Event :=
  (if e.isBounded then [
    loweringEvent .debug "objective_row" [
      ("lower", .text (boundText e.lower)),
      ("upper", .text (boundText e.upper)),
      ("message", .text "Ignoring bounds on objective expression")]]
  else [])
    ++ Lowered.events e config ++
    match ObjectiveRow.ofExpr e sense config with
    | .error _ => []
    | .ok row => [
      loweringEvent .debug "objective_row" [
        ("status", .text "success"),
        ("sense", .text sense.label),
        ("terms", .count row.terms.termCount),
        ("message", .text "Lowered objective")]]

end PolyRow
