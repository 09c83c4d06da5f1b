import Mathlib.Logic.Function.Basic
import Mathlib.Data.List.Basic
import FabricPeer.Lib.Transition

/-! # The gateway's endorsement plan

`internal/pkg/gateway/endorsement.go` and the layout loop of `Server.Endorse`
(`internal/pkg/gateway/endorse.go`). A plan holds the layouts of an endorsement plan from
discovery, each a quantity of endorsers per group, and the endorsers of each group, best first.
`endorsers` hands out the endorsers of the next layout that still fits, taking them off the
front of their groups, and each is asked in a goroutine of its own. A success is credited by
`processEndorsement` to every pending layout from `nextLayout` on that uses the endorser's
group, and completes a layout once nothing is left of what it requires. A failure asks the next
endorser of the same group (`nextPeerInGroup`) or, when the group has none left, abandons every
layout that uses the group and moves `nextLayout` on. `Endorse` asks layout after layout until
one is complete or none is left.

The goroutines of a round run concurrently and take the plan's lock for each call, so the loop
is a transition system whose steps are one call of one goroutine. An endorsement is named by
the endorser that gave it.
-/

namespace FabricPeer.Gateway

set_option autoImplicit false

/-- `layout`: the quantities still required per group, and the endorsements collected. -/
structure PlanLayout (G E : Type) where
  required : List (G × ℕ)
  endorsements : List E
  deriving DecidableEq, Repr

/-- `plan`, without `size` (the capacity of a channel) and the logger. -/
structure Plan (G E Pl : Type) where
  layouts : List (Option (PlanLayout G E))
  groupEndorsers : G → List E
  groupIds : List (E × G)
  nextLayout : ℕ
  responsePayload : Option Pl
  completedLayout : Option (PlanLayout G E)
  errorDetails : List E

section Plan

variable {G E Pl : Type} [DecidableEq G] [DecidableEq E] [DecidableEq Pl] [Inhabited G]

def newPlan (layouts : List (PlanLayout G E)) (groupEndorsers : List (G × List E)) :
    Plan G E Pl where
  layouts := layouts.map some
  groupEndorsers := fun group => (groupEndorsers.lookup group).getD []
  groupIds := groupEndorsers.flatMap fun (group, endorsers) => endorsers.map (·, group)
  nextLayout := 0
  responsePayload := none
  completedLayout := none
  errorDetails := []

def Plan.groupOf (p : Plan G E Pl) (endorser : E) : G := (p.groupIds.lookup endorser).getD default

def takeGroups (groupEndorsers : G → List E) : List (G × ℕ) → Option (List E) × (G → List E)
  | [] => (some [], groupEndorsers)
  | (group, qty) :: rest =>
    if qty > (groupEndorsers group).length then (none, groupEndorsers)
    else
      let (taken, groupEndorsers') :=
        takeGroups (Function.update groupEndorsers group ((groupEndorsers group).drop qty)) rest
      (taken.map ((groupEndorsers group).take qty ++ ·), groupEndorsers')

def firstLiveLayout (layouts : List (Option (PlanLayout G E))) (next : ℕ) : ℕ :=
  next + ((layouts.drop next).takeWhile Option.isNone).length

def endorsersLoop : ℕ → Plan G E Pl → Option (List E × Plan G E Pl)
  | 0, _ => none
  | fuel + 1, p =>
    let next := firstLiveLayout p.layouts p.nextLayout
    match p.layouts[next]? with
    | some (some layout) =>
      match takeGroups p.groupEndorsers layout.required with
      | (none, groupEndorsers) =>
        endorsersLoop fuel { p with
          groupEndorsers := groupEndorsers, layouts := p.layouts.set next none,
          nextLayout := next + 1 }
      | (some [], groupEndorsers) =>
        endorsersLoop fuel { p with groupEndorsers := groupEndorsers, nextLayout := next }
      | (some endorsers, groupEndorsers) =>
        some (endorsers, { p with groupEndorsers := groupEndorsers, nextLayout := next })
    | _ => some ([], { p with nextLayout := next })

/-- `plan.endorsers`: the endorsers to ask (`[]` for `nil`) and the plan after; `none` when it does
not return, which only a layout that requires nothing makes it do. -/
def Plan.endorsers (p : Plan G E Pl) : Option (List E × Plan G E Pl) :=
  endorsersLoop (p.layouts.length + 1) p

def PlanLayout.credit (layout : PlanLayout G E) (group : G) (quantity : ℕ) (endorsement : E) :
    PlanLayout G E where
  required :=
    if quantity - 1 = 0 then layout.required.filter (·.1 != group)
    else layout.required.map fun entry => if entry.1 = group then (group, quantity - 1) else entry
  endorsements := layout.endorsements ++ [endorsement]

def creditLayouts (group : G) (endorsement : E) :
    List (Option (PlanLayout G E)) → List (Option (PlanLayout G E)) × Option (PlanLayout G E)
  | [] => ([], none)
  | none :: rest =>
    let (rest', completed) := creditLayouts group endorsement rest
    (none :: rest', completed)
  | some layout :: rest =>
    match layout.required.lookup group with
    | none =>
      let (rest', completed) := creditLayouts group endorsement rest
      (some layout :: rest', completed)
    | some quantity =>
      let layout' := layout.credit group quantity endorsement
      if quantity - 1 = 0 && layout'.required.isEmpty then (some layout' :: rest, some layout')
      else
        let (rest', completed) := creditLayouts group endorsement rest
        (some layout' :: rest', completed)

/-- `plan.processEndorsement`: whether the payload matches the others', and the plan after. -/
def Plan.processEndorsement (p : Plan G E Pl) (endorser : E) (payload : Pl) :
    Bool × Plan G E Pl :=
  let group := p.groupOf endorser
  let p := { p with
    groupEndorsers := Function.update p.groupEndorsers group ((p.groupEndorsers group).erase endorser) }
  if p.responsePayload.any (· ≠ payload) then (false, { p with errorDetails := p.errorDetails ++ [endorser] })
  else
    let (credited, completed) := creditLayouts group endorser (p.layouts.drop p.nextLayout)
    (true, { p with
      responsePayload := some (p.responsePayload.getD payload)
      layouts := p.layouts.take p.nextLayout ++ credited
      completedLayout := completed.or p.completedLayout })

/-- `plan.nextPeerInGroup`: the next endorser of the same group, or `nil` after abandoning every
layout from `nextLayout` on that uses the group and moving `nextLayout` on. -/
def Plan.nextPeerInGroup (p : Plan G E Pl) (endorser : E) : Option E × Plan G E Pl :=
  let group := p.groupOf endorser
  match p.groupEndorsers group with
  | next :: rest =>
    (some next, { p with groupEndorsers := Function.update p.groupEndorsers group rest })
  | [] =>
    (none, { p with
      layouts := p.layouts.take p.nextLayout ++ (p.layouts.drop p.nextLayout).map fun layout =>
        layout.bind fun layout => if (layout.required.lookup group).isSome then none else some layout
      nextLayout := p.nextLayout + 1 })

def Plan.addError (p : Plan G E Pl) (endorser : E) : Plan G E Pl :=
  { p with errorDetails := p.errorDetails ++ [endorser] }

end Plan

/-- `uniqueEndorsements`: the first endorsement of each endorser. -/
def uniqueEndorsements {E : Type} [DecidableEq E] (endorsements : List E) : List E :=
  (endorsements.foldl (fun (acc : List E × List E) e =>
    if e ∈ acc.1 then acc else (e :: acc.1, acc.2 ++ [e])) ([], [])).2

/-- What an endorser answers a proposal, the same every time it is asked. -/
inductive Outcome (Pl : Type) where
  | failure
  | success (payload : Pl)
  deriving DecidableEq, Repr

/-- What a goroutine of the loop does next: ask its endorser (`processProposal`), or, after a
failure or a mismatched payload, ask the plan for another endorser (`nextPeerInGroup`). -/
inductive Task (E : Type) where
  | propose (endorser : E)
  | retry (endorser : E)
  deriving DecidableEq, Repr

/-- The loop of `Endorse`: the plan, the goroutines of the current round, and whether the loop
has found no layout left (`break`). -/
structure EndorseState (G E Pl : Type) where
  plan : Plan G E Pl
  tasks : List (Task E)
  stopped : Bool

section Endorse

variable {G E Pl : Type} [DecidableEq G] [DecidableEq E] [DecidableEq Pl] [Inhabited G]

def EndorseState.initial (plan : Plan G E Pl) : EndorseState G E Pl := ⟨plan, [], false⟩

def EndorseState.Ended (s : EndorseState G E Pl) : Prop :=
  s.tasks = [] ∧ (s.plan.completedLayout.isSome ∨ s.stopped = true)

/-- What `Endorse` returns once the loop has: the payload and the endorsements of the completed
layout, or `Aborted` with the error details. -/
def EndorseState.result (s : EndorseState G E Pl) : Except (List E) (Option Pl × List E) :=
  match s.plan.completedLayout with
  | some layout => .ok (s.plan.responsePayload, uniqueEndorsements layout.endorsements)
  | none => .error s.plan.errorDetails

inductive Step (outcome : E → Outcome Pl) : EndorseState G E Pl → EndorseState G E Pl → Prop
  /-- No goroutine is left and no layout is complete: the loop asks for the next layout's
  endorsers and starts a goroutine for each, or breaks out when there are none. -/
  | round {s : EndorseState G E Pl} {endorsers : List E} {plan' : Plan G E Pl}
      (hIdle : s.tasks = []) (hOpen : s.plan.completedLayout = none) (hRunning : s.stopped = false)
      (hEndorsers : s.plan.endorsers = some (endorsers, plan')) :
      Step outcome s ⟨plan', endorsers.map .propose, endorsers.isEmpty⟩
  | endorsed {s : EndorseState G E Pl} {i : ℕ} {endorser : E} {payload : Pl}
      {plan' : Plan G E Pl} (hTask : s.tasks[i]? = some (.propose endorser))
      (hOutcome : outcome endorser = .success payload)
      (hProcess : s.plan.processEndorsement endorser payload = (true, plan')) :
      Step outcome s { s with plan := plan', tasks := s.tasks.eraseIdx i }
  | mismatched {s : EndorseState G E Pl} {i : ℕ} {endorser : E} {payload : Pl}
      {plan' : Plan G E Pl} (hTask : s.tasks[i]? = some (.propose endorser))
      (hOutcome : outcome endorser = .success payload)
      (hProcess : s.plan.processEndorsement endorser payload = (false, plan')) :
      Step outcome s { s with plan := plan', tasks := s.tasks.set i (.retry endorser) }
  | failed {s : EndorseState G E Pl} {i : ℕ} {endorser : E}
      (hTask : s.tasks[i]? = some (.propose endorser)) (hOutcome : outcome endorser = .failure) :
      Step outcome s { s with plan := s.plan.addError endorser, tasks := s.tasks.set i (.retry endorser) }
  | retried {s : EndorseState G E Pl} {i : ℕ} {endorser next : E} {plan' : Plan G E Pl}
      (hTask : s.tasks[i]? = some (.retry endorser))
      (hNext : s.plan.nextPeerInGroup endorser = (some next, plan')) :
      Step outcome s { s with plan := plan', tasks := s.tasks.set i (.propose next) }
  | exhausted {s : EndorseState G E Pl} {i : ℕ} {endorser : E} {plan' : Plan G E Pl}
      (hTask : s.tasks[i]? = some (.retry endorser))
      (hNext : s.plan.nextPeerInGroup endorser = (none, plan')) :
      Step outcome s { s with plan := plan', tasks := s.tasks.eraseIdx i }

end Endorse

end FabricPeer.Gateway
