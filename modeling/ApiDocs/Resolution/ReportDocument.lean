import ApiDocs.Json
import ApiDocs.Resolution.Report

/-!
# The report document

The report of a run as a data document: when the run began and how long it took, the summary, and
the unresolved references.
-/

namespace ApiDocs

/-- When a run began and how long it took, in whole seconds. -/
structure Clock where
  timestamp : Nat := 0
  duration : Nat := 0

namespace Report

def summaryTree (r : Report) : Json :=
  .object
    [ ("total", .int r.total),
      ("resolved", .int r.resolved.length),
      ("unresolved", .int r.unresolved.length),
      ("unresolved_targets", .object (r.unresolvedTargets.map fun e => (e.1, .int e.2))) ]

def tree (r : Report) (clock : Clock) : Json :=
  .object
    [ ("meta", .object
        [("timestamp", .int clock.timestamp), ("duration", .int clock.duration)]),
      ("stats", r.summaryTree),
      ("unresolved", .list (r.unresolved.map fun u =>
        .object [("owner", .text u.1), ("text", .text u.2)])) ]

/-- The report of a run as text; characters outside ASCII are escaped. -/
def document (r : Report) (clock : Clock) : Text := (r.tree clock).render true

end Report

end ApiDocs
