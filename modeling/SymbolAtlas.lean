import SymbolAtlas.Disk.Change
import SymbolAtlas.Main
import SymbolAtlas.Proofs.Loader.Retention
import SymbolAtlas.Proofs.Index.Moves
import SymbolAtlas.Proofs.Loader.Lifetimes
import SymbolAtlas.Proofs.Search.Plans
import SymbolAtlas.Proofs.Search.Pruning
import SymbolAtlas.Proofs.Source.TopLevel
import SymbolAtlas.Proofs.Data.Reading
import SymbolAtlas.Proofs.Store.Lossless
import SymbolAtlas.Proofs.Store.Saving
import SymbolAtlas.Proofs.Disk.RealPaths
import SymbolAtlas.Proofs.Store.Loading
import SymbolAtlas.Proofs.Index.Flags
import SymbolAtlas.Proofs.Loader.Mirror
import SymbolAtlas.Proofs.Index.Settling
import SymbolAtlas.Proofs.Store.Room
import SymbolAtlas.Proofs.Loader.Refreshing
import SymbolAtlas.Proofs.Loader.Joining
import SymbolAtlas.Proofs.Index.Excluding
import SymbolAtlas.Proofs.Index.Conflicts
import SymbolAtlas.Proofs.Index.Sharing
import SymbolAtlas.Proofs.Search.Depth
import SymbolAtlas.Proofs.Search.Stops
import SymbolAtlas.Proofs.Index.Nesting
import SymbolAtlas.Proofs.Index.Effects
import SymbolAtlas.Proofs.Console.Reports
import SymbolAtlas.Proofs.Index.Belonging
import SymbolAtlas.Proofs.Index.Genuine
import SymbolAtlas.Proofs.Source.Spaces
import SymbolAtlas.Proofs.Store.Atomic
import SymbolAtlas.Proofs.Store.Unusable
import SymbolAtlas.Proofs.Loader.Corrupt
import SymbolAtlas.Proofs.Loader.Walking
import SymbolAtlas.Proofs.Store.Building
import SymbolAtlas.Proofs.Loader.Misses
import SymbolAtlas.Proofs.Search.Entering
import SymbolAtlas.Proofs.Search.ChildFirst
import SymbolAtlas.Proofs.Search.Sorting
import SymbolAtlas.Proofs.Mask.Segments
import SymbolAtlas.Proofs.Mask.Rejecting
import SymbolAtlas.Proofs.Mask.Excluding
import SymbolAtlas.Proofs.Search.Locations
import SymbolAtlas.Proofs.Settings.Layers
import SymbolAtlas.Proofs.Path.Splitting
import SymbolAtlas.Proofs.Search.Remembering
import SymbolAtlas.Proofs.Search.Reaching
import SymbolAtlas.Proofs.Settings.Failing
import SymbolAtlas.Proofs.Source.Flattening
import SymbolAtlas.Proofs.Source.FirstError
