import AttributeScope.Report.Text
import AttributeScope.Report.Document
import AttributeScope.FileTree.Reader
import AttributeScope.Project.Scan
import AttributeScope.Config.Location
import AttributeScope.Config.Reading
import AttributeScope.CommandLine.Session
import AttributeScope.Main
import AttributeScope.Proofs.MergedVerdicts
import AttributeScope.Proofs.ProjectVerdicts
import AttributeScope.Proofs.OrderIndependence
import AttributeScope.Proofs.CanonicalForm
import AttributeScope.Proofs.SegmentReadings
import AttributeScope.Proofs.ReadingMeaning
import AttributeScope.Proofs.TranslationSoundness
import AttributeScope.Proofs.TranslationCompleteness
import AttributeScope.Proofs.LooseStars
import AttributeScope.Proofs.MarkerSurvival
import AttributeScope.Proofs.RenderedMeaning
import AttributeScope.Proofs.AnchoredPatterns
import AttributeScope.Proofs.NormalDirectories
import AttributeScope.Proofs.ByteOrder
import AttributeScope.Proofs.ByteCuts
import AttributeScope.Proofs.ByteScans
import AttributeScope.Proofs.DirectoryIsolation
import AttributeScope.Proofs.LimitGrowth
import AttributeScope.Proofs.MergeHistory
import AttributeScope.Proofs.TranslationPreview
import AttributeScope.Proofs.ReadingCount
import AttributeScope.Proofs.AtSigns
import AttributeScope.Proofs.ResolutionCount
import AttributeScope.Proofs.PatternCharacters
import AttributeScope.Proofs.LegibleScopes
import AttributeScope.Proofs.DirectiveLines
import AttributeScope.Proofs.LineEnds
import AttributeScope.Proofs.WrittenLines
import AttributeScope.Proofs.ProperTrees
import AttributeScope.Proofs.PathLookup
import AttributeScope.Proofs.ConfigSearch
import AttributeScope.Proofs.Walks
import AttributeScope.Proofs.FoundFiles
import AttributeScope.Proofs.ChangedFiles
import AttributeScope.Proofs.ChangedDiscovery
import AttributeScope.Proofs.ProjectPaths
import AttributeScope.Proofs.UnreadableFiles
import AttributeScope.Proofs.CompleteReports
import AttributeScope.Proofs.ScanEndings
import AttributeScope.Proofs.DecodedLines
import AttributeScope.Proofs.TranslationWarnings
import AttributeScope.Proofs.SettingsFlaws
import AttributeScope.Proofs.ReportDocuments
import AttributeScope.Proofs.ControlSequences
import AttributeScope.Proofs.ColoredOutput
