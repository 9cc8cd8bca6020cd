import SipMigrate.Executor.Tally
import SipMigrate.Fixture.StepDirectory
import SipMigrate.Hash.Vector
import SipMigrate.Main
import SipMigrate.Migration.StoredRow
import SipMigrate.Proofs.CommandLine.HashLine
import SipMigrate.Proofs.CommandLine.KeptFiles
import SipMigrate.Proofs.Fixture.StepDirectory
import SipMigrate.Proofs.Hash.DigestCodec
import SipMigrate.Proofs.Hash.FoldedText
import SipMigrate.Proofs.Hash.KeyCodec
import SipMigrate.Proofs.Hash.KeySeparation
import SipMigrate.Proofs.Hash.Reading
import SipMigrate.Proofs.Hash.Reference
import SipMigrate.Proofs.Hash.StateInvariant
import SipMigrate.Proofs.Hash.Streaming
import SipMigrate.Proofs.Migration.ExpectedVersion
import SipMigrate.Proofs.Migration.Interleaving
import SipMigrate.Proofs.Migration.LineBreaks
import SipMigrate.Proofs.Migration.LockedTables
import SipMigrate.Proofs.Migration.OtherTables
import SipMigrate.Proofs.Migration.PieceByPiece
import SipMigrate.Proofs.Migration.RecordDecoding
import SipMigrate.Proofs.Migration.RecordedRows
import SipMigrate.Proofs.Migration.TableNames
import SipMigrate.Proofs.Migration.Tallying
import SipMigrate.Proofs.Migration.WrittenScripts
