import LicenseSurvey.Proofs.FileTree.Frame
import LicenseSurvey.Proofs.Text.Split

/-! # Creating a file by its path

A lookup passes only directories until it is at its goal, and writing a file changes none of
them. So a file that is created at the place to which its path leads is found there again by
the same path.
-/

namespace LicenseSurvey.FileTree

variable {tree : FileTree} {place target : List Bytes}

/-! ## Directories on the way -/

end LicenseSurvey.FileTree
