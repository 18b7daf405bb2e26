import Portix.Sftp.Proofs.RemoveProofs
import Portix.Sftp.Proofs.AttemptProofs
import Portix.Ssh.Proofs.HostKeysProofs
import Portix.Ssh.Proofs.LoginsProofs
import Portix.Ssh.Proofs.ExecWorkerProofs
import Portix.Ssh.Proofs.EventsProofs
import Portix.Ssh.Proofs.DisconnectProofs
import Portix.Ssh.Proofs.ConnectProofs
import Portix.Rdp.Proofs.LicenseBypassProofs
import Portix.Rdp.Proofs.ConvergenceProofs
import Portix.Rdp.Proofs.IndexProofs
import Portix.Rdp.Proofs.GhostProofs
import Portix.Rdp.Proofs.StopProofs
import Portix.Rdp.Proofs.BlockingProofs
import Portix.App.Proofs.RdpBackendServiceProofs
import Portix.Profiles.Proofs.StoreFileProofs
import Portix.Profiles.Proofs.SecretLifeProofs
import Portix.Connection.Proofs.CredentialsProofs
import Portix.Stores.Proofs.StoresProofs
import Portix.Workspace.Proofs.ProfileListProofs
import Portix.Workspace.Proofs.OsDetectionProofs
import Portix.SftpWorkspace.Proofs.LocalEditWatcherProofs
import Portix.Connection.Proofs.StatusShownProofs
import Portix.Profiles.Proofs.ProfileImportProofs
import Portix.Kubernetes.Proofs.KubeFormProofs
import Portix.Rdp.Proofs.RdpFileProofs
import Portix.SftpWorkspace.Proofs.FolderDownloadProofs
import Portix.Kubernetes.Proofs.KubeLogViewProofs
import Portix.Kubernetes.Proofs.WorkloadsProofs
import Portix.SftpWorkspace.Proofs.FolderUploadProofs
import Portix.Forward.Proofs.Socks5Proofs
import Portix.Forward.Proofs.TunnelsProofs
import Portix.Sftp.Proofs.SessionPoolProofs
import Portix.SftpWorkspace.Proofs.RemoteSearchProofs
import Portix.SftpWorkspace.Proofs.FindEntriesProofs
import Portix.Kubernetes.Proofs.KubeFollowProofs
import Portix.Terminal.Proofs.ConsistentProofs
import Portix.Core.Proofs.TextDiffProofs
import Portix.Stores.Proofs.SnapshotTextProofs
import Portix.Rdp.Proofs.ScreenProofs
import Portix.Profiles.Proofs.QuickConnectProofs
import Portix.Kibana.Proofs.KibanaFieldsProofs
import Portix.Kubernetes.Proofs.LogQueryProofs
import Portix.Connection.Proofs.SessionLogProofs
import Portix.Kibana.Proofs.KibanaFiltersProofs
import Portix.Kibana.Proofs.FilterBarProofs
import Portix.SftpWorkspace.Proofs.SftpTabsProofs
import Portix.SftpWorkspace.Proofs.PaneSelectionsProofs
import Portix.Terminal.Proofs.TerminalSearchProofs
import Portix.Terminal.Proofs.TerminalShortcutsProofs
import Portix.Kibana.Proofs.KibanaLoginsProofs
import Portix.Kubernetes.Proofs.DetailTrailProofs
import Portix.Kubernetes.Proofs.KubeDetailProofs
import Portix.Kubernetes.Proofs.PodStatusProofs
import Portix.Kubernetes.Proofs.QuantitiesProofs
import Portix.Terminal.Proofs.SplitTreeProofs
import Portix.Terminal.Proofs.SessionOrderProofs
