import Scriptlet.Proofs.Pairing.Session

/-!
# Collections cannot be seen

When a module collects, and whether the host asks for it, shows in nothing but the requests that are about the
heap itself.
-/

namespace Scriptlet

open Budget (Meter)

theorem Budget.Meter.SameUpToCollection.refl_right {m m' : Meter} (h : m.SameUpToCollection m') :
    m'.SameUpToCollection m' := by
  cases h with
  | depthOnly maxDepth => exact .depthOnly maxDepth
  | full limits counters interval memory openMemory openDuration =>
    exact .full { limits with collectionInterval := interval } { counters with memory } interval memory
      openMemory openDuration

/-- Two modules whose limits differ only in how often they collect, if they limit neither memory nor time, give the
same replies to the same requests, wherever requests about the heap are put in between. A reply is the answer, which
is an object or a failure with all its data, together with what the tracer has kept. -/
theorem session_unaffected_by_collection (name : String) {meter meter' : Meter}
    (meters : meter.SameUpToCollection meter') {steps steps' : List Step}
    (same : steps.filter (!·.aboutHeap) = steps'.filter (!·.aboutHeap)) :
    (Module.create name meter).visibleReplies steps = (Module.create name meter').visibleReplies steps' := by
  have left := (Module.paired_create name meters).visibleReplies_eq (Module.tracked_create name meter) steps
  have right := (Module.paired_create name meters.refl_right).visibleReplies_eq
    (Module.tracked_create name meter') steps'
  rw [left, right, same]

/-- A module that collects after every allocation and one that never does. The first list is garbage by the time
of the collection, and its slot is used again. -/
theorem session_unaffected_by_collection_of_lists :
    let setUp : Step := .exec .recorder [.assign (.name "x") (.list [.none]),
      .assign (.name "x") (.list [.bool true])]
    let use : Step := .exec .silent [.assign (.name "y") (.list [.name "x"])]
    let often := (Module.create "m" (.start { collectionInterval := some 1 })).visibleReplies
      [setUp, .collect, use, .collect, .get "y"]
    let never := (Module.create "m" (.start {})).visibleReplies [setUp, use, .census, .get "y"]
    often = never ∧ never.map Reply.answer = [.done, .done, .object (.list [.list [.bool true]])] :=
  ⟨session_unaffected_by_collection "m" (.full { collectionInterval := some 1 } {} none 0 rfl rfl) rfl,
    by decide +kernel⟩

end Scriptlet
