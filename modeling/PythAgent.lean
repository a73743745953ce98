import PythAgent.Solana.Account
import PythAgent.Solana.Oracle
import PythAgent.Solana.Pipeline
import PythAgent.Dashboard
import PythAgent.Proofs.Oracle.Handlers
import PythAgent.Proofs.Oracle.Poll
import PythAgent.Proofs.Oracle.Fuel
import PythAgent.Proofs.Oracle.Static
import PythAgent.Proofs.Oracle.Chain
import PythAgent.Proofs.Oracle.Liveness
import PythAgent.Proofs.Oracle.Sync
import PythAgent.Proofs.Oracle.Updates
import PythAgent.Proofs.Oracle.Pipeline
import PythAgent.Proofs.Dashboard.Loop
import PythAgent.Proofs.Dashboard.Report
import PythAgent.Proofs.Dashboard.IterationOrder
