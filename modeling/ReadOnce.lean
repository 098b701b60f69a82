import ReadOnce.Bytes
import ReadOnce.Text.Utf8
import ReadOnce.Text.Blank
import ReadOnce.Text.Decimal
import ReadOnce.Text.Quoted
import ReadOnce.Time.Rfc3339
import ReadOnce.Message.Codec
import ReadOnce.Framing
import ReadOnce.Cipher.XChaCha20Poly1305
import ReadOnce.PinHash.Argon2
import ReadOnce.PinHash.Salted
import ReadOnce.Cipher.Secret
import ReadOnce.Store.Error
import ReadOnce.Vault.Error
import ReadOnce.Vault.Limits
import ReadOnce.Cell.Basic
import ReadOnce.Number.Shortest
import ReadOnce.Store.Shelf
import ReadOnce.Store.Trees
import ReadOnce.Store.Table
import ReadOnce.Store.Service
import ReadOnce.Vault.Basic
import ReadOnce.Toml.Parser
import ReadOnce.Config.Reader
import ReadOnce.Vault.Opening
import ReadOnce.Log.Filter
import ReadOnce.Proofs.Vault.Race
import ReadOnce.Proofs.Vault.Life
import ReadOnce.Proofs.Vault.Reveal
import ReadOnce.Proofs.Vault.Finality
import ReadOnce.Proofs.Vault.Reopening
import ReadOnce.Proofs.Store.Alike
import ReadOnce.Proofs.Vault.Sweeping
import ReadOnce.Proofs.Message.Truncated
import ReadOnce.Proofs.Store.Undisturbed
import ReadOnce.Proofs.Number.Rounding
import ReadOnce.Proofs.Store.Migrated
import ReadOnce.Proofs.Store.Transparent
import ReadOnce.Proofs.Store.Overlap
import ReadOnce.Proofs.Store.Overlooked
import ReadOnce.Proofs.Store.Early
import ReadOnce.Proofs.Store.Schedule
import ReadOnce.Proofs.Store.Timetable
import ReadOnce.Proofs.Store.Stopped
import ReadOnce.Proofs.Store.Overrun
import ReadOnce.Proofs.Vault.Admission
import ReadOnce.Proofs.Vault.Restored
import ReadOnce.Proofs.Framing.Grammar
import ReadOnce.Proofs.Cipher.Secret
import ReadOnce.Proofs.Config.Validated
import ReadOnce.Proofs.Config.PinSize
import ReadOnce.Proofs.PinHash.Settings
import ReadOnce.Proofs.Message.Key
