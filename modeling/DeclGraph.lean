import DeclGraph.Build.Basic
import DeclGraph.Interchange.ParseTree
import DeclGraph.Interchange.Summary
import DeclGraph.Query.Filter
import DeclGraph.SourceReader
import DeclGraph.Proofs.Assembly.Again
import DeclGraph.Proofs.Assembly.BestMention
import DeclGraph.Proofs.Assembly.Names
import DeclGraph.Proofs.Assembly.Verdict
import DeclGraph.Proofs.Assembly.FinishedOrder
import DeclGraph.Proofs.Assembly.Transaction
import DeclGraph.Proofs.Build.Merging
import DeclGraph.Proofs.Build.Order
import DeclGraph.Proofs.Build.Cancelling
import DeclGraph.Proofs.Catalogue.Spelled
import DeclGraph.Proofs.Catalogue.Apart
import DeclGraph.Proofs.Catalogue.SideBySide
import DeclGraph.Proofs.Catalogue.Following
import DeclGraph.Proofs.Assembly.Directives
import DeclGraph.Proofs.Assembly.Strays
import DeclGraph.Proofs.Assembly.Kinds
import DeclGraph.Proofs.Assembly.Aliases
import DeclGraph.Proofs.Assembly.Rooted
import DeclGraph.Proofs.Assembly.Arity
import DeclGraph.Proofs.Assembly.Uses
import DeclGraph.Proofs.Assembly.Accounts
import DeclGraph.Proofs.Assembly.Calls
import DeclGraph.Proofs.Assembly.Leading
import DeclGraph.Proofs.Assembly.Finishing
import DeclGraph.Proofs.Assembly.Overloads
import DeclGraph.Proofs.Assembly.FieldTypes
import DeclGraph.Proofs.Assembly.Hierarchy
import DeclGraph.Proofs.Assembly.Overrides
import DeclGraph.Proofs.Assembly.OverrideOrder
import DeclGraph.Proofs.Assembly.Switches
import DeclGraph.Proofs.Graph.Changes
import DeclGraph.Proofs.Graph.Checking
import DeclGraph.Proofs.Graph.Removal
import DeclGraph.Proofs.Catalogue.Members
import DeclGraph.Proofs.Catalogue.Shadowing
import DeclGraph.Proofs.Catalogue.Unnamed
import DeclGraph.Proofs.Catalogue.Inherited
import DeclGraph.Proofs.Catalogue.Absolute
import DeclGraph.Proofs.Catalogue.Ending
import DeclGraph.Proofs.Catalogue.Renaming
import DeclGraph.Proofs.Assembly.Relocations
import DeclGraph.Proofs.Assembly.Arising
import DeclGraph.Proofs.Declaration.Identity
import DeclGraph.Proofs.Spelling.Qualifiers
import DeclGraph.Proofs.Spelling.QualifierPlaces
import DeclGraph.Proofs.Spelling.TypeTrees
import DeclGraph.Proofs.Spelling.Templates
import DeclGraph.Proofs.Graph.RepeatedEdges
import DeclGraph.Proofs.Query.PathPatterns
import DeclGraph.Proofs.Assembly.ScopesFirst
import DeclGraph.Proofs.Contribution.KnownScopes
import DeclGraph.Proofs.ParseTree.Anchors
import DeclGraph.Proofs.ParseTree.Accesses
import DeclGraph.Proofs.Statistics
