import FilteredSearch.Json.Reader
import FilteredSearch.SearchRequest.Script
import FilteredSearch.Proofs.FilterScript.Refines
import FilteredSearch.Proofs.FilterTree.Failures
import FilteredSearch.Proofs.FilterTree.Lasting
import FilteredSearch.Proofs.FilterTree.Fragments
import FilteredSearch.Proofs.Aggregation.Nodes
import FilteredSearch.Proofs.FilterScript.Transcripts
import FilteredSearch.Proofs.Warnings
import FilteredSearch.Proofs.Aggregation.Calls
import FilteredSearch.Proofs.Aggregation.Runs
import FilteredSearch.Proofs.Aggregation.Modes
import FilteredSearch.Proofs.Aggregation.ReadBack
import FilteredSearch.Proofs.FilterTree.Local
import FilteredSearch.Proofs.FilterTree.Spliced
import FilteredSearch.Proofs.FilterScript.Moved
import FilteredSearch.Proofs.FilterTree.Added
import FilteredSearch.Proofs.FilterScript.ClauseOrder
import FilteredSearch.Proofs.FilterTree.Enclosing
import FilteredSearch.Proofs.FilterScript.Back
import FilteredSearch.Proofs.FilterTree.Plain
import FilteredSearch.Proofs.SearchRequest.Parts
import FilteredSearch.Proofs.SearchRequest.Rearranged
import FilteredSearch.Proofs.Aggregation.Documents
import FilteredSearch.Proofs.SearchRequest.Composed
import FilteredSearch.Proofs.SearchRequest.Deliveries
import FilteredSearch.Proofs.SearchRequest.Filters
import FilteredSearch.Proofs.Decode.Responses
import FilteredSearch.Proofs.Json.Plain
import FilteredSearch.Proofs.Json.RoundTrip
import FilteredSearch.Proofs.SearchRequest.Texts
import FilteredSearch.Proofs.Aggregation.Periods
import FilteredSearch.Proofs.FieldPath.Accessors
import FilteredSearch.Proofs.FilterTree.Bools
import FilteredSearch.Proofs.FilterScript.BoolHandles
import FilteredSearch.Proofs.FilterScript.Cuts
import FilteredSearch.Proofs.SearchRequest.FailedFilters
import FilteredSearch.Proofs.Decode.Lookup
import FilteredSearch.Proofs.Decode.Flattened
import FilteredSearch.Proofs.Decode.Forms
import FilteredSearch.Proofs.Aggregation.Readable
import FilteredSearch.Proofs.FilterTerm.Held
import FilteredSearch.Proofs.FilterScript.Wrapped
import FilteredSearch.Proofs.FilterScript.Numbers
import FilteredSearch.Proofs.FilterTree.Nesting
import FilteredSearch.Proofs.FilterScript.Replay
import FilteredSearch.Proofs.FilterTree.Ranges
