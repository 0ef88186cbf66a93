import Blockwork.Proofs.Block.Codec
import Blockwork.Proofs.Catalogue.InputNames
import Blockwork.Proofs.Catalogue.Offers
import Blockwork.Proofs.Catalogue.SharedNames
import Blockwork.Proofs.Generation.Coverage
import Blockwork.Proofs.Generation.DeclaredParts
import Blockwork.Proofs.Generation.EntryImports
import Blockwork.Proofs.Generation.FileImports
import Blockwork.Proofs.Generation.History
import Blockwork.Proofs.Generation.Indentation
import Blockwork.Proofs.Generation.Modes
import Blockwork.Proofs.Generation.Nesting
import Blockwork.Proofs.Generation.Placement
import Blockwork.Proofs.Generation.RootPlaces
import Blockwork.Proofs.Generation.StartHooks
import Blockwork.Proofs.Generation.StringTexts
import Blockwork.Proofs.Generation.Success
import Blockwork.Proofs.Import.Declaration
import Blockwork.Proofs.Import.GuessedName
import Blockwork.Proofs.Package.ParameterList
import Blockwork.Proofs.Routing.Descent
import Blockwork.Proofs.Session.AnyOrder
import Blockwork.Proofs.Session.FailingStore
import Blockwork.Proofs.Session.ImportNames
import Blockwork.Proofs.Session.ImportPaths
import Blockwork.Proofs.Session.PaletteShown
import Blockwork.Proofs.Session.Persistence
import Blockwork.Proofs.Session.Readiness
import Blockwork.Proofs.Session.Sharing
import Blockwork.Proofs.Session.TakingAll
import Blockwork.Proofs.Snippet.Union
import Blockwork.Proofs.Source.LiteralForms
import Blockwork.Proofs.Source.Selectors
import Blockwork.Proofs.Source.StringReader
import Blockwork.Proofs.Store.FailedWrites
import Blockwork.Service.Client
