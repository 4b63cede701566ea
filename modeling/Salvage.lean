import Salvage.Catalog.Cache
import Salvage.Main
import Salvage.Proofs.Assembly.Conversion
import Salvage.Proofs.Bundle
import Salvage.Proofs.Chunk.Batch
import Salvage.Proofs.Chunk.Header
import Salvage.Proofs.Chunk.Jump
import Salvage.Proofs.Chunk.OutputPath
import Salvage.Proofs.Chunk.Reach
import Salvage.Proofs.Chunk.RepairLoop
import Salvage.Proofs.Chunk.Search
import Salvage.Proofs.Chunk.Stack
import Salvage.Proofs.Cipher.Rc4Forms
import Salvage.Proofs.Container.Scripts
import Salvage.Proofs.Decompile.Course
import Salvage.Proofs.Decompile.Literal
import Salvage.Proofs.Envelope
import Salvage.Proofs.Ghost
import Salvage.Proofs.Pak.Hashes
import Salvage.Proofs.Pak.Index
import Salvage.Proofs.Pak.Sealed
import Salvage.Proofs.Protocol.Calls
import Salvage.Proofs.Schema.RoundTrip
import Salvage.Proofs.Table.Conversion
import Salvage.Proofs.Table.RoundTrip
import Salvage.Proofs.Table.RowBound
import Salvage.Proofs.Table.Sheet
import Salvage.Proofs.Transport
import Salvage.Proofs.Update.Asset
import Salvage.Proofs.Update.Lists
import Salvage.Proofs.Update.Pool
import Salvage.Proofs.Window.Given
import Salvage.Saved.Batch
