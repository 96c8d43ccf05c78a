import ClamavWin32.Semantics.TransitionSystem
import ClamavWin32.Semantics.EventTable
import ClamavWin32.Semantics.LinkedChain
import ClamavWin32.Semantics.ByteMemory
import ClamavWin32.Win32
import ClamavWin32.Synchapi.WakeTheorems
import ClamavWin32.Synchapi.SRWLockWaiters
import ClamavWin32.Synchapi.CondVarTheorems
import ClamavWin32.RunOnce.ExactlyOnce
import ClamavWin32.RunOnce.WaiterChain
import ClamavWin32.DllMain.SigcheckTheorems
import ClamavWin32.FinalPath.DriveLettersTheorems
import ClamavWin32.ScanMem.AlignPeTheorems
import ClamavWin32.ScanMem.QuarantineTheorems
import ClamavWin32.ScanMem.FailedScanTheorems
import ClamavWin32.ScanMem.ScanMemTheorems
import ClamavWin32.Resolver.AnswerTheorems
import ClamavWin32.Resolver.QuestionTheorems
import ClamavWin32.Resolver.BufferTheorems
import ClamavWin32.TzApi.UniversalTimeTheorems
import ClamavWin32.Synchapi.WakeAllTheorems
import ClamavWin32.RunOnce.ClaimReleased
import ClamavWin32.ScanMem.RealignTheorems
import ClamavWin32.Resolver.RoundTripTheorems
import ClamavWin32.Resolver.PacketTheorems
import ClamavWin32.Resolver.LedgerTheorems
import ClamavWin32.Semantics.FileStore
import ClamavWin32.Actions.FileActionsTheorems
import ClamavWin32.FinalPath.FinalPathNameTheorems
import ClamavWin32.Semantics.LinkList
import ClamavWin32.Fls.CallbackTheorems
import ClamavWin32.Fls.FreeRaceTheorems
import ClamavWin32.TzApi.YearInformationTheorems
import ClamavWin32.Fls.FailureTheorems
import ClamavWin32.Resolver.LeakTheorems
import ClamavWin32.Actions.MoveTheorems
import ClamavWin32.FinalPath.RetryLoops
import ClamavWin32.FinalPath.SplitTheorems
import ClamavWin32.FinalPath.NormalizedTheorems
import ClamavWin32.FinalPath.LongPathNameTheorems
import ClamavWin32.FinalPath.OwnershipTheorems
import ClamavWin32.Actions.ActionSourceTheorems
import ClamavWin32.DllMain.SysInfoApiTheorems
import ClamavWin32.Legacy.FilePointerTheorems
import ClamavWin32.DllMain.UacTheorems
import ClamavWin32.ScanMem.ModuleNameTheorems
import ClamavWin32.ScanMem.DumpLedgerTheorems
import ClamavWin32.Legacy.FileInformationTheorems
import ClamavWin32.DllMain.DirentTheorems
import ClamavWin32.Legacy.ProcessorInformationTheorems
import ClamavWin32.Legacy.CrtTheorems
import ClamavWin32.Common.ServiceTheorems
import ClamavWin32.Synchapi.FutexListTheorems
import ClamavWin32.Legacy.UnregisterTheorems
import ClamavWin32.Bzip2.Crc
import ClamavWin32.Bzip2.HuffmanTheorems
import ClamavWin32.Bzip2.CompressStreamTheorems
import ClamavWin32.Bzip2.InverseTheorems
import ClamavWin32.Bzip2.MtfValuesTheorems
import ClamavWin32.Bzip2.CodeLengths
import ClamavWin32.Bzip2.CodeLengthsTheorems
