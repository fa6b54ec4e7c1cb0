import ApiDocs.Main
import ApiDocs.Workspace
import ApiDocs.Proofs.Failing
import ApiDocs.Proofs.Sorting
import ApiDocs.Proofs.Table
import ApiDocs.Proofs.Visibility
import ApiDocs.Proofs.Nesting
import ApiDocs.Proofs.Partition
import ApiDocs.Proofs.Precedence
import ApiDocs.Proofs.Extraction
import ApiDocs.Proofs.WellFormed
import ApiDocs.Proofs.Emission
import ApiDocs.Proofs.DataTree
import ApiDocs.Proofs.Inheritance
import ApiDocs.Proofs.Alike
import ApiDocs.Proofs.Resolving
import ApiDocs.Proofs.Rendering
import ApiDocs.Proofs.AlikePages
import ApiDocs.Proofs.Reordering
import ApiDocs.Proofs.OrderIndependence
import ApiDocs.Proofs.SharedTable
import ApiDocs.Proofs.Cutting
import ApiDocs.Proofs.Joining
import ApiDocs.Proofs.Tagged
import ApiDocs.Proofs.Scanning
import ApiDocs.Proofs.TagForms
import ApiDocs.Proofs.TaggedSentence
import ApiDocs.Proofs.SentenceCuts
import ApiDocs.Proofs.ShownDocs
import ApiDocs.Proofs.Documented
import ApiDocs.Proofs.LinkAlignment
import ApiDocs.Proofs.Lookup
import ApiDocs.Proofs.LinkTargets
import ApiDocs.Proofs.Ancestors
import ApiDocs.Proofs.BreadthFirst
import ApiDocs.Proofs.Donors
import ApiDocs.Proofs.Anchors
import ApiDocs.Proofs.Landmarks
import ApiDocs.Proofs.Outlines
import ApiDocs.Proofs.PageAnchors
import ApiDocs.Proofs.PageFiles
import ApiDocs.Proofs.EmittedPages
import ApiDocs.Proofs.Writers
import ApiDocs.Proofs.TargetFiles
import ApiDocs.Proofs.Markers
import ApiDocs.Proofs.ShownTags
import ApiDocs.Proofs.Retexted
import ApiDocs.Proofs.OtherComment
import ApiDocs.Proofs.OnlyMarker
import ApiDocs.Proofs.Containment
import ApiDocs.Proofs.VisibilityLevels
import ApiDocs.Proofs.Completion
import ApiDocs.Proofs.ParameterLists
import ApiDocs.Proofs.ParameterTypes
import ApiDocs.Proofs.MemberNames
import ApiDocs.Proofs.Overloads
import ApiDocs.Proofs.WrittenParameters
import ApiDocs.Proofs.Merging
import ApiDocs.Proofs.ClashingTypes
import ApiDocs.Proofs.StoredModels
import ApiDocs.Proofs.DiskFaults
import ApiDocs.Proofs.FailedRuns
import ApiDocs.Proofs.SeeTargets
import ApiDocs.Proofs.NamedTags
import ApiDocs.Proofs.Margins
import ApiDocs.Proofs.InheritedTags
import ApiDocs.Proofs.ScopeChains
import ApiDocs.Proofs.MergedOnce
import ApiDocs.Proofs.Keys
import ApiDocs.Proofs.Unions
import ApiDocs.Proofs.DeepMerge
import ApiDocs.Proofs.MergedTwice
import ApiDocs.Proofs.MergedSettings
import ApiDocs.Proofs.ReadDocuments
import ApiDocs.Proofs.TableCells
import ApiDocs.Proofs.SuperclassPaths
import ApiDocs.Proofs.Places
import ApiDocs.Proofs.LetterCase
import ApiDocs.Proofs.LandingPages
