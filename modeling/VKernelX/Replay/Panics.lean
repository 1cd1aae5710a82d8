/-
  Replay/Panics.lean --- replay never panics.

  Its loops are those of validation and ordering, and everything it applies to the state fails
  with an error.
-/
import VKernelX.Dag.Safety
import VKernelX.Replay.Applied

set_option autoImplicit false

namespace VKernelX

open Outcome

theorem noPanic_parseEntry (key value : String) : (parseEntry key value).NoPanic := by
  unfold parseEntry
  split
  · exact noPanic_ok _
  · exact noPanic_fail _

theorem noPanic_parseVisibility (md : BTreeMap String String) : (parseVisibility md).NoPanic := by
  unfold parseVisibility
  split
  · split
    · exact noPanic_ok _
    · split
      · exact noPanic_ok _
      · exact noPanic_fail _
  · exact noPanic_fail _

theorem noPanic_regionStateFromEvent (e : VectorEvent) : (regionStateFromEvent e).NoPanic := by
  refine noPanic_bind (noPanic_require _ _) (fun _ _ => ?_)
  refine noPanic_bind (noPanic_require _ _) (fun _ _ => ?_)
  refine noPanic_bind (noPanic_okOr _ _) (fun _ _ => ?_)
  refine noPanic_bind (noPanic_okOr _ _) (fun _ _ => ?_)
  refine noPanic_bind (noPanic_okOr _ _) (fun _ _ => ?_)
  refine noPanic_bind (noPanic_parseEntry _ _) (fun sectionNumber _ => ?_)
  -- either way of getting the ratio, the rest is the same
  extract_lets rest
  have hrest : ∀ authRatioBps, (rest authRatioBps).NoPanic := by
    intro authRatioBps
    refine noPanic_bind (noPanic_require _ _) (fun _ _ => ?_)
    refine noPanic_bind (noPanic_parseVisibility _) (fun _ _ => ?_)
    refine noPanic_bind (noPanic_okOr _ _) (fun _ _ => ?_)
    refine noPanic_bind (noPanic_okOr _ _) (fun _ _ => ?_)
    exact noPanic_bind (noPanic_okOr _ _) (fun _ _ => noPanic_ok _)
  split
  · exact noPanic_bind (noPanic_parseEntry _ _) (fun authRatioBps _ => hrest authRatioBps)
  · exact noPanic_bind (noPanic_ok _) (fun authRatioBps _ => hrest authRatioBps)

section

variable (env : Platform)

theorem noPanic_applyRegionEvent (core : CoreState) (e : VectorEvent) :
    (applyRegionEvent env core e).NoPanic := by
  refine noPanic_bind (noPanic_regionStateFromEvent e) (fun region _ => ?_)
  refine noPanic_bind (noPanic_require _ _) (fun _ _ => ?_)
  refine noPanic_bind (noPanic_okOr _ _) (fun _ _ => ?_)
  exact noPanic_bind (noPanic_okOr _ _) (fun _ _ => noPanic_ok _)

theorem noPanic_applyNext (progress : ReplayProgress) (e : VectorEvent) :
    (applyNext env progress e).NoPanic := by
  refine noPanic_bind ?_ (fun _ _ => noPanic_ok _)
  unfold applyEvent
  split
  · exact noPanic_bind (noPanic_mapErr_iff.mpr (noPanic_applyRegionEvent env _ e))
      (fun _ _ => noPanic_ok _)
  · dsimp only
    split
    · exact noPanic_bind (noPanic_require _ _) (fun _ _ => noPanic_ok _)
    · exact noPanic_bind (noPanic_okOr _ _) (fun _ _ =>
        noPanic_bind (noPanic_require _ _) (fun _ _ => noPanic_ok _))

theorem noPanic_replayEvents (events : List VectorEvent) : (replayEvents env events).NoPanic := by
  refine noPanic_bind (noPanic_validateDag events) (fun _ _ => ?_)
  refine noPanic_bind (noPanic_foldlM (fun group _ progress => ?_) _) (fun _ _ => noPanic_ok _)
  refine noPanic_bind (orderEntityEvents_safe group).run_noPanic (fun ordered _ => ?_)
  exact noPanic_foldlM (fun e _ progress => noPanic_applyNext env progress e) progress

end

end VKernelX
