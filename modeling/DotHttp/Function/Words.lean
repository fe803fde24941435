/-!
The words that the built-in functions choose from.
-/

namespace DotHttp.Function

/-- First names, by initial. -/
def firstNames : Array String := #[
  "Aaron", "Abigail", "Adrian", "Alexander", "Alice", "Amy", "Andrew", "Angelica", "Anthony",
  "Ava", "Benjamin", "Bella", "Bob", "Brandon", "Brenda", "Brendan", "Bridget", "Bruce", "Bryan",
  "Bradley", "Caleb", "Cameron", "Camila", "Candace", "Carter", "Casey", "Catherine", "Charlie",
  "Christopher", "Connor", "Dakota", "Daniel", "David", "Danielle", "Daphne", "Deborah", "Derek",
  "Diana", "Donna", "Dorothy", "Ethan", "Eleanor", "Elijah", "Elizabeth", "Emily", "Emma", "Eric",
  "Evelyn", "Edward", "Elliott", "Fiona", "Felix", "Frank", "Francesca", "Faye", "Finn",
  "Felicity", "Frederick", "Freya", "Francis", "George", "Grace", "Gabriella", "Gregory",
  "Grayson", "Gwendolyn", "Gavin", "Garrett", "Gary", "Gail", "Hannah", "Henry", "Harrison",
  "Heidi", "Helen", "Hector", "Hazel", "Howard", "Harold", "Henrietta", "Ian", "Isaac",
  "Isabella", "Iris", "Ivan", "Irene", "Ingrid", "Igor", "Imogen", "Isadora", "Jack", "James",
  "Jayden", "Jessica", "Jerome", "Janet", "Jasmine", "Jared", "Jennifer", "Josephine", "Kevin",
  "Kathryn", "Keisha", "Kyle", "Keith", "Kimberley", "Kirk", "Kayla", "Kenneth", "Katherine",
  "Lily", "Liam", "Landon", "Lena", "Leo", "Lisa", "Lionel", "Lucia", "Logan", "Lydia", "Michael",
  "Melanie", "Marcus", "Melissa", "Martin", "Marcella", "Matthew", "Monica", "Magnolia",
  "Michelle", "Natalie", "Nathan", "Nathaniel", "Nancy", "Nicholas", "Natasha", "Nelson",
  "Nicole", "Noah", "Norman", "Oliver", "Olivia", "Oscar", "Opal", "Owen", "Ophelia", "Otto",
  "Octavia", "Orson", "Olive", "Patricia", "Patrick", "Parker", "Paisley", "Peter", "Pamela",
  "Paul", "Phillip", "Phoebe", "Patrice", "Quentin", "Quinn", "Quinton", "Quincy", "Quinlan",
  "Quinley", "Quill", "Queenie", "Quest", "Quinby", "Rebecca", "Rachel", "Rosa", "Rhonda",
  "Richard", "Robert", "Raymond", "Randall", "Rita", "Ryan", "Samuel", "Stephen", "Sebastian",
  "Stella", "Sophia", "Susan", "Steven", "Sarah", "Scott", "Sandra", "Thomas", "Tanya", "Teresa",
  "Tabitha", "Timothy", "Theodore", "Theresa", "Tina", "Tyler", "Terrence", "Uriel", "Ulysses",
  "Ulrich", "Upton", "Uma", "Urban", "Unique", "Udo", "Usher", "Unity", "Victoria", "Valerie",
  "Vanessa", "Vincent", "Victor", "Violet", "Vernon", "Vivian", "Vaughn", "Valencia", "William",
  "Warren", "Wesley", "Wyatt", "Walter", "Winona", "Wayne", "Willow", "Winston", "Wanda",
  "Xavier", "Xena", "Ximena", "Xiomara", "Xander", "Xanthe", "Xavi", "Xenia", "Xiaowen", "Xyla",
  "Yvonne", "Yolanda", "Yasmine", "Yancy", "Yara", "York", "Yusuf", "Yannick", "Yosef", "Yuri",
  "Zachary", "Zoe", "Zelda", "Zara", "Zeke", "Zena", "Ziggy", "Zola", "Zuri", "Zane"]

/-- Last names, by initial. -/
def lastNames : Array String := #[
  "Abbott", "Adams", "Adkins", "Aguilar", "Aguirre", "Alexander", "Allison", "Almanza",
  "Anderson", "Andrews", "Bailey", "Baker", "Baldwin", "Ballard", "Barnard", "Barnes", "Barrett",
  "Barron", "Barton", "Bates", "Cain", "Caldwell", "Calhoun", "Callahan", "Cameron", "Campbell",
  "Campfield", "Cannon", "Cantrell", "Carey", "Dalton", "Daniel", "Daniels", "Darby", "Darden",
  "Davenport", "Davidson", "Davis", "Dawson", "Dayton", "Eaton", "Eberly", "Eckert", "Edison",
  "Edmonds", "Edwards", "Efron", "Egan", "Eggleston", "Eisenhower", "Fabiano", "Fairbanks",
  "Fairchild", "Falcone", "Farmer", "Farrell", "Farrow", "Faulkner", "Fawcett", "Fay", "Gabel",
  "Gadson", "Gage", "Gaines", "Gallagher", "Gallery", "Galley", "Galloway", "Garcia", "Gardner",
  "Habib", "Hackett", "Hadden", "Hadley", "Hageman", "Hahn", "Haley", "Hall", "Hallmark", "Hamm",
  "Iannaccone", "Ingalls", "Ingram", "Innis", "Inouye", "Ireland", "Irons", "Irving", "Irwin",
  "Isaac", "Jackson", "Jacobs", "Jacobson", "Jagielski", "Jahner", "James", "Jameson", "Jarrett",
  "Jasinski", "Jaynes", "Kable", "Kaczmarski", "Kadel", "Kael", "Kagan", "Kahn", "Kale",
  "Kallenborn", "Kalogeris", "Kaminsky", "Lace", "Lacy", "Lade", "Lagrange", "Laine", "Laird",
  "Lalonde", "Lamb", "Lambert", "Lamm", "Mace", "Macey", "Macias", "Mack", "Mackenzie",
  "Maclaughlin", "Macon", "Madden", "Maddox", "Madigan", "Naber", "Nachman", "Nagle", "Nagel",
  "Nagle", "Nagy", "Nahu", "Naish", "Naitove", "Nakata", "Oakley", "Oakes", "Oaks", "Oatley",
  "Ober", "Oberon", "Obringer", "Obrzut", "O'Brien", "O'Byrne", "Pace", "Pacheco", "Pachter",
  "Packer", "Paction", "Padron", "Pagan", "Pager", "Paige", "Paine", "Qian", "Qin", "Qing",
  "Quackenbush", "Quade", "Quail", "Quayle", "Queen", "Quentin", "Quetone", "Race", "Racette",
  "Rackley", "Racz", "Radcliff", "Radcliffe", "Radde", "Radford", "Radkey", "Radosevich", "Sable",
  "Sackett", "Sackler", "Sadler", "Sadowski", "Safford", "Safransky", "Sage", "Sager", "Sailer",
  "Tableman", "Tackett", "Tadlock", "Taft", "Taggart", "Tahir", "Tailor", "Taintor", "Taka",
  "Takacs", "Uecker", "Ueberroth", "Uelmen", "Ueno", "Ugarsky", "Uher", "Uhlmann", "Ukoha",
  "Ulbrich", "Ulery", "Vacarro", "Vaccaro", "Vache", "Vachon", "Vada", "Vadeboncoeur", "Vadi",
  "Vadivieso", "Vadose", "Vaerst", "Wacker", "Waddle", "Waddy", "Wade", "Wadha", "Wadhams",
  "Wadi", "Wadleigh", "Wadley", "Wadlington", "Xanares", "Xander", "Xandu", "Xanelli", "Xandy",
  "Xanth", "Xanthopoulos", "Xanthy", "Xantus", "Xantus-Kornfeld", "Yackel", "Yackey", "Yackley",
  "Yaconiello", "Yacono", "Yager", "Yaggy", "Yahl", "Yaklin", "Yakstub", "Zabel", "Zabka",
  "Zablocki", "Zaby", "Zachariah", "Zacharias", "Zacharin", "Zachary", "Zaccagnino", "Zaccarelli"]

def addresses : Array String := #[
  "123 Main Street, Springfield, IL 62701", "456 Oak Avenue, Portland, OR 97201",
  "789 Pine Road, Austin, TX 78701", "1010 Maple Drive, Denver, CO 80202",
  "2020 Cedar Lane, Seattle, WA 98101", "3030 Elm Street, Boston, MA 02108",
  "4040 Birch Boulevard, Miami, FL 33101", "5050 Walnut Court, Chicago, IL 60601",
  "6060 Spruce Way, Phoenix, AZ 85001", "7070 Willow Place, Atlanta, GA 30301"]

def jobTitles : Array String := #[
  "Software Engineer", "Data Scientist", "Product Manager", "Graphic Designer",
  "Marketing Specialist", "Sales Representative", "Human Resources Manager", "Financial Analyst",
  "Customer Service Representative", "Operations Manager", "Business Analyst", "Content Writer",
  "UX/UI Designer", "Project Coordinator", "Quality Assurance Tester", "Social Media Manager",
  "IT Support Specialist", "Accountant", "Web Developer", "Digital Marketing Manager"]

def emailDomains : Array String := #[
  "example.com", "example.org", "example.net", "mail.example.com", "test.example.com"]

/-- The words of the filler text, which starts again after the last one. -/
def loremWords : Array String := #[
  "Lorem", "ipsum", "dolor", "sit", "amet", "consectetur", "adipiscing", "elit", "sed", "do",
  "eiusmod", "tempor", "incididunt", "ut", "labore", "et", "dolore", "magna", "aliqua", "Ut",
  "enim", "ad", "minim", "veniam", "quis", "nostrud", "exercitation", "ullamco", "laboris",
  "nisi", "ut", "aliquip", "ex", "ea", "commodo", "consequat", "Duis", "aute", "irure", "dolor",
  "in", "reprehenderit", "in", "voluptate", "velit", "esse", "cillum", "dolore", "eu", "fugiat",
  "nulla", "pariatur", "Excepteur", "sint", "occaecat", "cupidatat", "non", "proident", "sunt",
  "in", "culpa", "qui", "officia", "deserunt", "mollit", "anim", "id", "est", "laborum"]

end DotHttp.Function
