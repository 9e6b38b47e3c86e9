import Ntfs.CommandLine.Folder
import Ntfs.Main
import Ntfs.Proofs.RunList.Grammar
import Ntfs.Proofs.Trace.Content
import Ntfs.Proofs.Content.Reference
import Ntfs.Proofs.Content.Stream
import Ntfs.Proofs.Content.Position
import Ntfs.Proofs.Content.Placement
import Ntfs.Proofs.Content.Channel
import Ntfs.Proofs.Content.Shortage
import Ntfs.Proofs.Record.Isolation
import Ntfs.Proofs.Record.Intact
import Ntfs.Proofs.Record.Stored
import Ntfs.Proofs.Table.Invariant
import Ntfs.Proofs.Table.Chain
import Ntfs.Proofs.Machine.Record
import Ntfs.Proofs.Record.Slack
import Ntfs.Proofs.Table.Range
import Ntfs.Proofs.Volume.Shift
import Ntfs.Proofs.Table.Json
import Ntfs.Proofs.Content.Limit
import Ntfs.Proofs.Table.Sizes
import Ntfs.Proofs.Table.Views
import Ntfs.Proofs.Table.Loading
import Ntfs.Proofs.Machine.Content
import Ntfs.Proofs.Fixup.Restore
import Ntfs.Proofs.AttributeList.Stored
import Ntfs.Proofs.Index.Stored
import Ntfs.Proofs.Index.Blocks
import Ntfs.Proofs.Index.Isolation
import Ntfs.Proofs.AttributeList.Isolation
import Ntfs.Proofs.Table.Components
import Ntfs.Proofs.Volume.Accepted
import Ntfs.Proofs.Table.Search
import Ntfs.Proofs.FileName.Stored
import Ntfs.Proofs.RunList.Lookup
import Ntfs.Proofs.Time.FileTime
import Ntfs.Proofs.Attribute.Bitmap
