import DuckdbOpendalfs.Text.ByteString
import DuckdbOpendalfs.Text.PercentEncoding
import DuckdbOpendalfs.Text.LengthFraming
import DuckdbOpendalfs.Collections.StableGrouping
import DuckdbOpendalfs.Collections.Attempts
import DuckdbOpendalfs.Collections.Stores
import DuckdbOpendalfs.Execution.Runs
import DuckdbOpendalfs.Execution.Programs
import DuckdbOpendalfs.Execution.Interleavings
import DuckdbOpendalfs.Execution.RelyGuarantee
import DuckdbOpendalfs.Execution.Threads
import DuckdbOpendalfs.Execution.Footprints
import DuckdbOpendalfs.Execution.Matching
import DuckdbOpendalfs.Execution.Linearization
import DuckdbOpendalfs.Address.Prefixes
import DuckdbOpendalfs.Address.Uri
import DuckdbOpendalfs.Address.ParseSpec
import DuckdbOpendalfs.Address.Layouts
import DuckdbOpendalfs.Address.Injectivity
import DuckdbOpendalfs.Address.ContainerSegments
import DuckdbOpendalfs.Address.HttpQuery
import DuckdbOpendalfs.Address.PathOnly
import DuckdbOpendalfs.Address.QueryIndependence
import DuckdbOpendalfs.Address.GithubPages
import DuckdbOpendalfs.Address.Joining
import DuckdbOpendalfs.Address.AuthorityKeys
import DuckdbOpendalfs.Address.OutParameter
import DuckdbOpendalfs.Operators.LayerOptions
import DuckdbOpendalfs.Operators.LayerSettings
import DuckdbOpendalfs.Operators.Configuration
import DuckdbOpendalfs.Operators.Secrets
import DuckdbOpendalfs.Operators.Objects
import DuckdbOpendalfs.Removal.GroupKey
import DuckdbOpendalfs.Removal.Groups
import DuckdbOpendalfs.Removal.Batch
import DuckdbOpendalfs.Removal.FailedBatch
import DuckdbOpendalfs.Move.MoveFile
import DuckdbOpendalfs.Move.CrossScheme
import DuckdbOpendalfs.Directories.Probes
import DuckdbOpendalfs.Directories.Listing
import DuckdbOpendalfs.Directories.RemoveDirectory
import DuckdbOpendalfs.Handles.FileHandle
import DuckdbOpendalfs.Handles.Readers
import DuckdbOpendalfs.Handles.ReadHandle
import DuckdbOpendalfs.Handles.CursorRefinement
import DuckdbOpendalfs.Handles.FailedReads
import DuckdbOpendalfs.Handles.WriteHandle
import DuckdbOpendalfs.Handles.OpenFile
import DuckdbOpendalfs.Handles.AppendRuns
import DuckdbOpendalfs.Handles.Destruction
import DuckdbOpendalfs.Handles.FailedOpen
import DuckdbOpendalfs.Handles.OverwriteRuns
import DuckdbOpendalfs.Handles.OpenRaces
import DuckdbOpendalfs.Handles.SharedReads
import DuckdbOpendalfs.Handles.RetriedUploads
import DuckdbOpendalfs.FileSystem.Operations
import DuckdbOpendalfs.FileSystem.Confinement
import DuckdbOpendalfs.FileSystem.Isolation
import DuckdbOpendalfs.FileSystem.Linearizable
import DuckdbOpendalfs.FileSystem.Provenance
import DuckdbOpendalfs.FileSystem.Sessions
import DuckdbOpendalfs.FileSystem.RoundTrip
import DuckdbOpendalfs.FileSystem.HandleMetadata
import DuckdbOpendalfs.FileSystem.FileMap
import DuckdbOpendalfs.FileSystem.MoveRuns
import DuckdbOpendalfs.FileSystem.Aliases
