import Lexicon.Proofs.Expression.Steps
import Mathlib.Order.Bounds.Basic

/-! Where a climb ends is found by a scan that builds no tree. -/

namespace Lexicon

variable {Hook : Type}

namespace Registry

mutual

/-- The scan of a climb begins with an operand. -/
def scan (registry : Registry Hook) (bound : Option Tier) :
    List Item → Except ClimbFault (List Item)
  | [] => .error .ended
  | .operator _ text :: _ => .error (.operandExpected text)
  | .operand _ :: rest => registry.scanOn bound rest

/-- After an operand the scan goes on with each operator above the bound. -/
def scanOn (registry : Registry Hook) (bound : Option Tier) :
    List Item → Except ClimbFault (List Item)
  | [] => .ok []
  | .operand text :: rest => .ok (.operand text :: rest)
  | .operator handle text :: rest =>
      match registry.binding handle text with
      | .error fault => .error fault
      | .ok (tier, _) =>
          if tier.within bound then registry.scan bound rest
          else .ok (.operator handle text :: rest)

end

variable {registry : Registry Hook}

section Operator

variable {bound : Option Tier} {handle : Handle} {text : String} {tier : Tier}
  {associativity : Associativity}

/-- An operator that does not bind ends the scan. -/
theorem scanOn_of_binding_error {fault : ClimbFault}
    (unbound : registry.binding handle text = .error fault) (rest : List Item) :
    registry.scanOn bound (.operator handle text :: rest) = .error fault := by
  rw [scanOn, unbound]

/-- An operator above the bound is passed. -/
theorem scanOn_of_within (binding : registry.binding handle text = .ok (tier, associativity))
    (within : tier.within bound = true) (rest : List Item) :
    registry.scanOn bound (.operator handle text :: rest) = registry.scan bound rest := by
  rw [scanOn, binding]
  simp only [within, if_true]

/-- An operator that is not above the bound stops the scan. -/
theorem scanOn_of_not_within (binding : registry.binding handle text = .ok (tier, associativity))
    (outside : tier.within bound = false) (rest : List Item) :
    registry.scanOn bound (.operator handle text :: rest) =
      .ok (.operator handle text :: rest) := by
  rw [scanOn, binding]
  simp only [outside, Bool.false_eq_true, if_false]

end Operator

/-- A scan can stop at a higher bound first and go on from there. -/
theorem scan_bind {inner bound : Option Tier} (higher : registry.Higher inner bound)
    (items : List Item) :
    (registry.scan inner items).bind (registry.scanOn bound) = registry.scan bound items ∧
      (registry.scanOn inner items).bind (registry.scanOn bound) = registry.scanOn bound items := by
  induction items with
  | nil => exact ⟨rfl, rfl⟩
  | cons item rest ih =>
      cases item with
      | operand text =>
          refine ⟨?_, rfl⟩
          rw [scan, scan]
          exact ih.2
      | operator handle text =>
          refine ⟨rfl, ?_⟩
          cases binding : registry.binding handle text with
          | error fault =>
              rw [scanOn_of_binding_error binding, scanOn_of_binding_error binding]
              rfl
          | ok bindings =>
              obtain ⟨tier, associativity⟩ := bindings
              have known := tier?_of_binding binding
              cases taken : tier.within inner with
              | true =>
                  have takenOutside := higher handle tier known taken
                  rw [scanOn_of_within binding taken, scanOn_of_within binding takenOutside]
                  exact ih.1
              | false =>
                  rw [scanOn_of_not_within binding taken]
                  rfl

mutual

/-- A climb leaves the items that its scan leaves, or ends with the fault of the scan. -/
theorem climbResult_scan (leveled : registry.Leveled) (bound : Option Tier) (items : List Item) :
    (registry.climbResult bound items).map Prod.snd = registry.scan bound items := by
  match items with
  | [] => rw [climbResult_nil, scan]; rfl
  | .operator handle text :: rest => rw [climbResult_operator, scan]; rfl
  | .operand text :: rest =>
      rw [climbResult_operand, scan]
      exact extendResult_scanOn leveled bound (.leaf text) rest
termination_by items.length

/-- An extension leaves the items that the scan leaves. -/
theorem extendResult_scanOn (leveled : registry.Leveled) (bound : Option Tier) (left : Tree)
    (items : List Item) :
    (registry.extendResult bound left items).map Prod.snd = registry.scanOn bound items := by
  match items with
  | [] => rw [extendResult_nil, scanOn]; rfl
  | .operand text :: rest => rw [extendResult_operand, scanOn]; rfl
  | .operator handle text :: rest =>
      cases binding : registry.binding handle text with
      | error fault =>
          rw [extendResult_of_binding_error registry bound binding,
            scanOn_of_binding_error binding]
          rfl
      | ok bindings =>
          obtain ⟨tier, associativity⟩ := bindings
          cases taken : tier.within bound with
          | false =>
              rw [extendResult_of_not_within registry bound binding taken,
                scanOn_of_not_within binding taken]
              rfl
          | true =>
              have known := tier?_of_binding binding
              obtain ⟨inner, below, higher⟩ :=
                leveled.exists_higher_bound known taken associativity
              -- The climb on the right is a scan with a higher bound, so the scan can go on from there.
              have right := climbResult_scan leveled inner rest
              have whole := (scan_bind higher rest).1
              rw [extendResult_of_within registry bound binding taken below,
                scanOn_of_within binding taken]
              cases climbed : registry.climbResult inner rest with
              | error fault =>
                  rw [climbed] at right
                  rw [← whole, ← right]
                  rfl
              | ok parts =>
                  obtain ⟨tree, unread⟩ := parts
                  rw [climbed] at right
                  rw [← whole, ← right]
                  have shorter := length_le_of_climbResult climbed
                  exact extendResult_scanOn leveled bound (.node left handle text tree) unread
termination_by items.length
decreasing_by
  all_goals simp only [List.length_cons]
  all_goals omega

end

end Registry

end Lexicon
