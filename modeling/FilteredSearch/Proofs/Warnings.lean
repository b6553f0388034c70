import FilteredSearch.Proofs.FilterScript.Transcripts
import FilteredSearch.SearchRequest.Executor
import FilteredSearch.MetricSession

/-!
# Warnings

A warning is an entry of the log that says that something was discarded.  Composing gives no
warnings, and neither does a run of a filter script.
-/

namespace FilteredSearch

/-- The warnings among entries of the log. -/
def LogEntry.warnings (entries : List LogEntry) : List LogEntry :=
  entries.filter fun entry => entry.level = .warn

open LogEntry (warnings)

@[simp]
theorem LogEntry.warnings_nil :
  warnings [] = []
  := rfl

@[simp]
theorem LogEntry.warnings_append (entries more : List LogEntry) :
  warnings (entries ++ more) = warnings entries ++ warnings more
  := List.filter_append _ _

theorem LogEntry.warnings_eq_nil {entries : List LogEntry}
    (h : ∀ entry ∈ entries, entry.level ≠ .warn) :
  warnings entries = []
  := by
  simpa [warnings] using h

/-- There are warnings exactly when one of the entries is a warning. -/
theorem LogEntry.warnings_ne_nil_iff {entries : List LogEntry} :
  warnings entries ≠ [] ↔ ∃ entry ∈ entries, entry.level = .warn
  := by
  simp [warnings]

/-! ### Composing -/

namespace Composed

variable {α β : Type}

@[simp]
theorem entries_pure (value : α) :
  entries (pure value) = []
  := rfl

@[simp]
theorem entries_ofExcept (x : Except SearchError α) :
  entries (ofExcept x) = []
  := rfl

@[simp]
theorem entries_write (entry : LogEntry) :
  entries (write entry) = [entry]
  := rfl

/-- A computation that goes on from another gives no warnings when neither of them does. -/
theorem warnings_bind {x : Composed α} {f : α → Composed β} (hx : warnings (entries x) = [])
    (hf : ∀ value, warnings (entries (f value)) = []) :
  warnings (entries (x >>= f)) = []
  := by
  show warnings ((ExceptT.run x).entries
    ++ (ExceptT.bindCont _ (ExceptT.run x).value : Logged _).entries) = []
  rw [LogEntry.warnings_append, List.append_eq_nil_iff]
  use hx
  cases (ExceptT.run x).value with
  | ok value => apply hf value
  | error error => rfl

end Composed

theorem FilterTree.warnings_composed (tree : FilterTree) :
  warnings tree.composed.entries = []
  := by
  apply Composed.warnings_bind
  · rfl
  · intro _
    rfl

namespace Aggregation

theorem warnings_composedFilter (filter : Option FilterTree) :
  warnings (composedFilter filter).entries = []
  := by
  cases filter with
  | none => rfl
  | some tree =>
    apply Composed.warnings_bind tree.warnings_composed
    intro _
    rfl

mutual

theorem warnings_composed : (node : Aggregation) → warnings node.composed.entries = []
  | ⟨_, some setting, _, _⟩ => by
    rw [composed, Composed.entries_ofExcept]
    rfl
  | ⟨_, none, filter, children⟩ => by
    rw [composed]
    apply Composed.warnings_bind (warnings_composedFilter filter)
    intro _
    apply Composed.warnings_bind (warnings_composedMembers children)
    intro _
    rfl

theorem warnings_composedMembers :
    (children : List (String × Aggregation)) → warnings (composedMembers children).entries = []
  | [] => by
    rw [composedMembers]
    rfl
  | (_, child) :: rest => by
    rw [composedMembers]
    apply Composed.warnings_bind (warnings_composed child)
    intro _
    apply Composed.warnings_bind (warnings_composedMembers rest)
    intro _
    rfl

end

end Aggregation

namespace SearchRequest

theorem warnings_composed (request : SearchRequest) :
  warnings request.composed.entries = []
  := by
  apply Composed.warnings_bind (Aggregation.warnings_composedFilter request.filter)
  intro _
  apply Composed.warnings_bind rfl
  intro _
  apply Composed.warnings_bind (Aggregation.warnings_composedMembers request.aggregations)
  intro _
  apply Composed.warnings_bind rfl
  intro _
  apply Composed.warnings_bind rfl
  intro _
  apply Composed.warnings_bind rfl
  intro _
  rfl

theorem warnings_execute (request : SearchRequest) (executor : Executor) :
  warnings (request.execute executor).entries = []
  := by
  rw [execute]
  split
  · rw [LogEntry.warnings_append, request.warnings_composed]
    rfl
  · apply request.warnings_composed

end SearchRequest

/-! ### Sessions -/

namespace MetricSession

/-- The warnings given in a session. -/
def warnings (session : MetricSession) : List LogEntry :=
  LogEntry.warnings session.transcript.entries.toList

variable (session : MetricSession)

@[simp]
theorem warnings_report (event : Event) :
  (session.report event).warnings = session.warnings
  := rfl

@[simp]
theorem warnings_keep (metric : Metric) :
  (session.keep metric).warnings = session.warnings
  := rfl

@[simp]
theorem warnings_log (entries : List LogEntry) :
  (session.log entries).warnings = session.warnings ++ LogEntry.warnings entries
  := by
  simp [warnings, log, Transcript.log]

@[simp]
theorem metrics_report (event : Event) :
  (session.report event).metrics = session.metrics
  := rfl

@[simp]
theorem metrics_log (entries : List LogEntry) :
  (session.log entries).metrics = session.metrics
  := rfl

/-- What a script makes of a filter, and what it writes, does not depend on the session. -/
theorem configure_eq (call : String) (strict : Bool) (body : FilterScript)
    (filter : Option FilterTree) :
  session.configure call strict body filter
    = ((MetricSession.empty.configure call strict body filter).1,
      { session with
        transcript := session.transcript.append
          (MetricSession.empty.configure call strict body filter).2.1.transcript },
      (MetricSession.empty.configure call strict body filter).2.2)
  := by
  have hstart : FilterBuild.start (filter.getD .empty)
        (session.report (.entered call FilterTree.root)).transcript strict
      = (FilterBuild.start (filter.getD .empty)
          (MetricSession.empty.report (.entered call FilterTree.root)).transcript strict).after
          session.transcript := by
    simp [FilterBuild.start, FilterBuild.after, MetricSession.empty, report, Transcript.report,
      Transcript.append, Transcript.empty]
  simp only [configure, hstart, FilterScript.run_after]
  rfl

/-- A run of a filter script gives no warnings. -/
theorem warnings_configure_empty (call : String) (strict : Bool) (body : FilterScript)
    (filter : Option FilterTree) :
  (MetricSession.empty.configure call strict body filter).2.1.warnings = []
  := by
  apply LogEntry.warnings_eq_nil
  intro entry hentry
  have hstart : (FilterBuild.start (filter.getD .empty)
      (MetricSession.empty.report (.entered call FilterTree.root)).transcript
      strict).OnlyAttached := by
    intro entry hentry
    simp [FilterBuild.start, MetricSession.empty, report, Transcript.report,
      Transcript.empty] at hentry
  obtain ⟨node, parent, rfl⟩ := body.onlyAttached_run (.scope FilterTree.root) hstart entry hentry
  simp [LogEntry.level]

@[simp]
theorem warnings_configure (call : String) (strict : Bool) (body : FilterScript)
    (filter : Option FilterTree) :
  (session.configure call strict body filter).2.1.warnings = session.warnings
  := by
  have hempty := warnings_configure_empty call strict body filter
  rw [configure_eq]
  simp only [warnings] at hempty ⊢
  simp [Transcript.append, hempty]

@[simp]
theorem metrics_configure (call : String) (strict : Bool) (body : FilterScript)
    (filter : Option FilterTree) :
  (session.configure call strict body filter).2.1.metrics = session.metrics
  := rfl

end MetricSession

end FilteredSearch
