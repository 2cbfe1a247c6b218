import TagText.Catalog.DefaultModifiers
import TagText.Document.Breadcrumb
import TagText.Document.Equality
import TagText.Document.Reading
import TagText.Document.Writing
import TagText.Editing.Session
import TagText.Service.Origins
import TagText.Service.Endpoints
import TagText.Proofs.Lexing.Splitting
import TagText.Proofs.Lexing.Limits
import TagText.Proofs.Lexing.Openings
import TagText.Proofs.Lexing.Arguments
import TagText.Proofs.Lexing.Segments
import TagText.Proofs.Lexing.Concatenation
import TagText.Proofs.Grammar.Arguments
import TagText.Proofs.Grammar.References
import TagText.Proofs.Outline.Parts
import TagText.Proofs.Outline.Expressions
import TagText.Proofs.Reading.Parts
import TagText.Proofs.Reading.Cut
import TagText.Proofs.Reading.Expressions
import TagText.Proofs.Reading.Spans
import TagText.Proofs.Number.Digits
import TagText.Proofs.Number.Rounding
import TagText.Proofs.Number.Shortest
import TagText.Proofs.Number.Texts
import TagText.Proofs.Argument.Spelling
import TagText.Proofs.Document.Unplaced
import TagText.Proofs.Writing.Spelling
import TagText.Proofs.Writing.Resolving
import TagText.Proofs.Grammar.Unambiguous
import TagText.Proofs.Writing.Settled
import TagText.Proofs.Writing.RoundTrip
import TagText.Proofs.Stored.Markers
import TagText.Proofs.Stored.Regions
import TagText.Proofs.Stored.Values
import TagText.Proofs.Document.Comparison
import TagText.Proofs.Stored.Enclosure
import TagText.Proofs.Writing.Comparison
import TagText.Proofs.Stored.RoundTrip
import TagText.Proofs.Editing.Drafts
import TagText.Proofs.Editing.Sessions
import TagText.Proofs.Reading.Derivations
import TagText.Proofs.Stored.Agreement
import TagText.Proofs.Writing.Writable
import TagText.Proofs.Editing.Commits
import TagText.Proofs.Reading.Overlong
import TagText.Proofs.Editing.Refusals
import TagText.Proofs.Editing.Reopening
import TagText.Proofs.Validation.Chains
import TagText.Proofs.Validation.Mismatches
import TagText.Proofs.Editing.Dynamic
import TagText.Proofs.Catalog.Lookup
import TagText.Proofs.Validation.WellTyped
import TagText.Proofs.Validation.Places
import TagText.Proofs.Editing.Effects
import TagText.Proofs.Editing.Segments
import TagText.Proofs.Editing.Splices
import TagText.Proofs.Editing.Histories
import TagText.Proofs.Editing.Refinement
import TagText.Proofs.Editing.Positions
import TagText.Proofs.Outline.Stops
import TagText.Proofs.Reading.Streams
import TagText.Proofs.Editing.Queries
import TagText.Proofs.Editing.Offers
import TagText.Proofs.Reading.Continuations
import TagText.Proofs.Validation.Names
import TagText.Proofs.Editing.Completions
import TagText.Proofs.Catalog.Inclusion
import TagText.Proofs.Validation.Coverage
import TagText.Proofs.Reading.Extension
import TagText.Proofs.Reading.Locality
import TagText.Proofs.Lexing.Gaps
import TagText.Proofs.Lexing.Places
import TagText.Proofs.Stored.Symbols
import TagText.Proofs.Reading.Prefixes
import TagText.Proofs.Service.Failures
import TagText.Proofs.Editing.Acceptance
import TagText.Proofs.Reading.Stray
import TagText.Proofs.Stored.Lines
import TagText.Proofs.Reading.Lengths
import TagText.Proofs.Catalog.Listing
import TagText.Proofs.Validation.Listed
import TagText.Proofs.Validation.Calls
import TagText.Proofs.Validation.RunningTypes
import TagText.Proofs.Number.Literals
import TagText.Proofs.Argument.Fitting
import TagText.Proofs.Reading.References
import TagText.Proofs.Validation.RawArguments
import TagText.Proofs.Argument.ReadBack
import TagText.Proofs.Catalog.Fields
import TagText.Proofs.Stored.Wrapping
import TagText.Proofs.Service.Policies
import TagText.Proofs.Editing.LifeCycle
import TagText.Proofs.Validation.Reports
import TagText.Proofs.Validation.Order
import TagText.Proofs.Catalog.Registration
import TagText.Proofs.Editing.Matching
