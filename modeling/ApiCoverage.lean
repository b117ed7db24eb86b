import ApiCoverage.Bytes
import ApiCoverage.CallSite
import ApiCoverage.ClassFile.Assembly
import ApiCoverage.ClassFile.Constant
import ApiCoverage.ClassFile.Unit
import ApiCoverage.CommandLine.Program
import ApiCoverage.CommandLine.Switch
import ApiCoverage.Decimal.Display
import ApiCoverage.Descriptor
import ApiCoverage.Exclusion
import ApiCoverage.Files.Tree
import ApiCoverage.JvmType.SourceName
import ApiCoverage.Main
import ApiCoverage.MethodKey
import ApiCoverage.Ordered.Map
import ApiCoverage.Ordered.Set
import ApiCoverage.Project.Plan
import ApiCoverage.Proofs.Bytes
import ApiCoverage.Proofs.ClassFile.AttributeList
import ApiCoverage.Proofs.ClassFile.Composition
import ApiCoverage.Proofs.ClassFile.Constant
import ApiCoverage.Proofs.ClassFile.Cut
import ApiCoverage.Proofs.ClassFile.Decoder
import ApiCoverage.Proofs.ClassFile.Draft
import ApiCoverage.Proofs.ClassFile.DraftCalls
import ApiCoverage.Proofs.ClassFile.DraftMethod
import ApiCoverage.Proofs.ClassFile.DraftNames
import ApiCoverage.Proofs.ClassFile.DraftSections
import ApiCoverage.Proofs.ClassFile.Drafting
import ApiCoverage.Proofs.ClassFile.Extent
import ApiCoverage.Proofs.ClassFile.FaultPlaces
import ApiCoverage.Proofs.ClassFile.Instruction
import ApiCoverage.Proofs.ClassFile.Layout
import ApiCoverage.Proofs.ClassFile.Levels
import ApiCoverage.Proofs.ClassFile.LineTable
import ApiCoverage.Proofs.ClassFile.Pool
import ApiCoverage.Proofs.ClassFile.PoolDraft
import ApiCoverage.Proofs.ClassFile.Positions
import ApiCoverage.Proofs.ClassFile.Reading
import ApiCoverage.Proofs.ClassFile.Rearrangement
import ApiCoverage.Proofs.ClassFile.Relocation
import ApiCoverage.Proofs.ClassFile.RoundTrip
import ApiCoverage.Proofs.ClassFile.Sections
import ApiCoverage.Proofs.ClassFile.Slots
import ApiCoverage.Proofs.ClassFile.Tiling
import ApiCoverage.Proofs.Descriptor.Canonical
import ApiCoverage.Proofs.Descriptor.Grammar
import ApiCoverage.Proofs.Descriptor.RoundTrip
import ApiCoverage.Proofs.Descriptor.Slashes
import ApiCoverage.Proofs.Descriptor.Spelling
import ApiCoverage.Proofs.Files.Lookup
import ApiCoverage.Proofs.Files.Pruning
import ApiCoverage.Proofs.Files.Walk
import ApiCoverage.Proofs.Ordered.Increasing
import ApiCoverage.Proofs.Ordered.Map
import ApiCoverage.Proofs.Ordered.Set
import ApiCoverage.Proofs.Outcome
import ApiCoverage.Proofs.Report.Counts
import ApiCoverage.Proofs.Report.CsvText
import ApiCoverage.Proofs.Report.JsonRecord
import ApiCoverage.Proofs.Report.JsonText
import ApiCoverage.Proofs.Report.Order
import ApiCoverage.Proofs.Report.Outline
import ApiCoverage.Proofs.Report.Recording
import ApiCoverage.Proofs.Scan.Accounting
import ApiCoverage.Proofs.Scan.AnnotationSites
import ApiCoverage.Proofs.Scan.Canonical
import ApiCoverage.Proofs.Scan.Choice
import ApiCoverage.Proofs.Scan.Exclusion
import ApiCoverage.Proofs.Scan.ExclusionLog
import ApiCoverage.Proofs.Scan.Order
import ApiCoverage.Proofs.Scan.Removal
import ApiCoverage.Proofs.Scan.Run
import ApiCoverage.Proofs.Scan.Selection
import ApiCoverage.Proofs.Scan.Sites
import ApiCoverage.Proofs.Scan.SlotLayout
import ApiCoverage.Proofs.Scan.Tracking
import ApiCoverage.Proofs.Scan.Undecodable
import ApiCoverage.Proofs.Scan.Usage
import ApiCoverage.Proofs.Surface.Ascent
import ApiCoverage.Proofs.Surface.Declared
import ApiCoverage.Proofs.Surface.Reduction
import ApiCoverage.Proofs.Surface.Tracked
import ApiCoverage.Proofs.Text.Layout
import ApiCoverage.Proofs.Text.ModifiedUtf8
import ApiCoverage.Proofs.Text.Utf16
import ApiCoverage.Report.Format
import ApiCoverage.Report.Summary
import ApiCoverage.Scan
import ApiCoverage.Sum
import ApiCoverage.Surface.Catalog
import ApiCoverage.Surface.Tracked
import ApiCoverage.Text.Alphabetic
import ApiCoverage.Text.Listing
import ApiCoverage.Text.Numeric
import ApiCoverage.Toml.Document
import ApiCoverage.Proofs.Descriptor.Element
import ApiCoverage.Proofs.Descriptor.Mentions
import ApiCoverage.Proofs.Descriptor.Resolution
import ApiCoverage.Proofs.Descriptor.Ends
import ApiCoverage.Proofs.Descriptor.Boundaries
import ApiCoverage.Proofs.JvmType.SourceName
import ApiCoverage.Proofs.ClassFile.Switch
import ApiCoverage.Proofs.Descriptor.Named
import ApiCoverage.Proofs.Scan.Overloads
import ApiCoverage.Proofs.Surface.Preorder
import ApiCoverage.Proofs.Surface.TypeNames
import ApiCoverage.Proofs.ClassFile.Concatenation
import ApiCoverage.Proofs.ClassFile.LineLookup
import ApiCoverage.Proofs.ClassFile.ElementValue
import ApiCoverage.Proofs.ClassFile.Interning
import ApiCoverage.Proofs.ClassFile.Reservation
import ApiCoverage.Proofs.Text.Trimming
import ApiCoverage.Proofs.Text.Listing
import ApiCoverage.Proofs.ExclusionList
import ApiCoverage.Proofs.Surface.CatalogReading
import ApiCoverage.Proofs.Scan.DeclaredNames
import ApiCoverage.Proofs.Project.Layers
import ApiCoverage.Proofs.Report.PageTemplate
import ApiCoverage.Proofs.Report.SourceLinks
import ApiCoverage.Proofs.Text.ByteGroups
import ApiCoverage.Proofs.Text.Joining
import ApiCoverage.Proofs.Ordered.Repetition
import ApiCoverage.Proofs.Project.SurfaceLists
