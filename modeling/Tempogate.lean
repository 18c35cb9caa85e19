import Tempogate.Proof.Admin.Expiry
import Tempogate.Proof.Admin.Listing
import Tempogate.Proof.Admin.RevokedKey
import Tempogate.Proof.Authz.Resolve
import Tempogate.Proof.Cli.Login
import Tempogate.Proof.Cli.Pace
import Tempogate.Proof.Device.Guessing
import Tempogate.Proof.Device.Polling
import Tempogate.Proof.Keys.PostgresKeystore
import Tempogate.Proof.Keys.PublishDelay
import Tempogate.Proof.Keys.Replicas
import Tempogate.Proof.Keys.Retirement
import Tempogate.Proof.Keys.Rotation
import Tempogate.Proof.Log.Bounds
import Tempogate.Proof.Oidc.Redirects
import Tempogate.Proof.Ratelimit.ClientKey
import Tempogate.Proof.Redact.Survival
import Tempogate.Proof.Refresh.PostgresRevocation
import Tempogate.Proof.Refresh.Reaped
import Tempogate.Proof.Refresh.RevokeAtomicity
import Tempogate.Proof.Refresh.SqliteLineage
import Tempogate.Proof.Replay.CodeReplay
import Tempogate.Proof.Replay.RefreshReplay
import Tempogate.Proof.Replay.RepeatedCode
import Tempogate.Proof.Sessions.Agreement
import Tempogate.Proof.Sweep.Postgres
import Tempogate.Proof.Sweep.Rowids
import Tempogate.Proof.Keys.Feed
import Tempogate.Proof.Oidc.Labels
import Tempogate.Proof.Keys.Encryption
import Tempogate.Proof.Oidc.BasicAuth
import Tempogate.Proof.Oidc.UserCode
