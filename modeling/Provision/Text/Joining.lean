import Provision.Text.Mark

/-!
# Joined letters

In cursive scripts a letter may join the one before it and the one after it.  Marks do not
come between letters that join.
-/

namespace Provision.Text

/-- The letters that join the one after them. -/
def joiningNext : CodePoints := .ofText
  "620 626 628 62a-62e 633-63f 641-647 649-64a 66e-66f 679-687 69a-6bf 6c1-6c2 6cc 6ce
   6d0-6d1 6fa-6fc 6ff 712-714 71a-71d 71f-727 729 72b 72d-72e 74e-758 75c-76a 76d-770 772
   775-777 77a-77f 7ca-7ea 841-845 848 84a-853 855 860 862-865 868 886 889-88d 88f-8a9
   8af-8b0 8b3-8b8 8ba-8c8 1807 1820-1878 1887-18aa a840-a872 10ac0-10ac4 10acd 10ad3-10adc
   10ade-10ae0 10aeb-10aee 10b80 10b82 10b86-10b88 10b8a-10b8b 10b8d 10b90 10bad-10bae
   10d00-10d21 10d23 10ec3-10ec4 10ec6-10ec7 10f30-10f32 10f34-10f44 10f51-10f53 10f70-10f73
   10f76-10f81 10fb0 10fb2-10fb3 10fb8 10fbb-10fbc 10fbe-10fbf 10fc1 10fc4 10fca-10fcb
   1e922-1e943"

/-- The letters that join the one before them. -/
def joiningBefore : CodePoints := .ofText
  "620 622-63f 641-64a 66e-673 679-6d3 6d5 6ee-6ef 6fa-6fc 6ff 710-77f 7ca-7ea 840-858 860
   862-865 867-882 886 889-8ac 8ae-8c8 1807 1820-1878 1887-18aa a840-a871 10ac0-10ac5 10ac7
   10ac9-10aca 10ace-10ad6 10ad8-10ae1 10ae4-10aef 10b80-10b91 10ba9-10bae 10d01-10d23
   10ec2-10ec4 10ec6-10ec7 10f30-10f44 10f51-10f54 10f70-10f81 10fb0 10fb2-10fb6 10fb8-10fbf
   10fc1-10fc4 10fc9-10fca 1e922-1e943"

/-- The mark of nasal letters of Adlam, which is a letter by itself. -/
def nasalMark : Nat := 0x1E94B

/-- Whether letters join across a code point. -/
def isTransparent (n : Nat) : Bool :=
  isNonspacingMark n || n = nasalMark

end Provision.Text
