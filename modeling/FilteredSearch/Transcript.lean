import FilteredSearch.Log

/-!
# Transcripts

A script is a row of calls, each of which may report something: the node or the aggregation it
is about, what it composed, or that it failed.  The transcript of a run holds the reports in the
order in which they were made, and the entries written to the log.
-/

namespace FilteredSearch

/-- A report of a call. -/
inductive Event where
  /-- The call is about to configure the node. -/
  | entered (call : String) (node : Nat)
  /-- The call is about to configure the aggregation. -/
  | enteredAggregation (call name : String)
  /-- The call gives a handle on the node. -/
  | node (call : String) (node : Nat)
  /-- The call gives no handle. -/
  | noNode (call : String)
  /-- The call is about the aggregation. -/
  | aggregation (call name : String)
  /-- The call gives the metric handle with the number, for the aggregation. -/
  | metric (call : String) (number : Nat) (name : String)
  /-- The call answers whether the aggregation is a bucket. -/
  | isBucket (call : String) (value : Bool)
  /-- The call composed a document. -/
  | document (call : String) (result : Except SearchError Json)
  /-- The call composed a document and wrote its text. -/
  | text (call : String) (result : Except SearchError String)
  /-- The call came to an end or failed. -/
  | outcome (call : String) (result : Except SearchError Unit)
  /-- The call sent documents to a search engine, and this came back: a response, and what the
  metrics read in it. -/
  | execution (call : String) (sent : List Json) (result : Except SearchError Json)
      (reads : Option (List (Except SearchError Json)))
  /-- The handle does not have the call. -/
  | unsupported (call : String)

/-- What a run of a script left behind. -/
structure Transcript where
  events : Array Event
  entries : Array LogEntry

namespace Transcript

/-- Nothing was run yet. -/
def empty : Transcript := ⟨#[], #[]⟩

/-- Adds a report. -/
def report (transcript : Transcript) (event : Event) : Transcript :=
  { transcript with events := transcript.events.push event }

/-- Adds entries of the log. -/
def log (transcript : Transcript) (entries : List LogEntry) : Transcript :=
  { transcript with entries := transcript.entries.appendList entries }

end Transcript

end FilteredSearch
