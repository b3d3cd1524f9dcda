import Templar.Lending.Ledger
import Templar.Lending.Settlement
import Templar.Lending.Liquidation
import Templar.Lending.YieldShares
import Templar.Lending.InterestShares
import Templar.Vault.ShareLedger
import Templar.Vault.Endings
import Templar.Vault.Rounding
import Templar.Near.Stale
import Templar.Near.Supplies
import Templar.Near.Solvency
import Templar.Vault.QueueRuns
import Templar.Oracle.NearRuns
import Templar.Oracle.SorobanRuns
import Templar.OracleGovernance.Timelocks
import Templar.Oracle.LazerRuns
import Templar.Oracle.Rescaling
import Templar.Oracle.Reread
import Templar.VaultGovernance.Abdication
import Templar.VaultGovernance.Agreement
import Templar.VaultGovernance.Tightening
import Templar.Registry
import Templar.CustodialAdapter
import Templar.Vault.Profit
import Templar.Vault.Settlement
import Templar.Vault.Service
import Templar.Vault.Dilution
